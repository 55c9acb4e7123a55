/-
**The platform classes.**

The classes of the platform that patches commonly use, with the members that are commonly used. A
class of the workspace with the same name comes before these.
-/

import MethodPatch.Host.Basic
import MethodPatch.Workspace.Basic

namespace MethodPatch.Platform

/-- The descriptor of strings. -/
def string : String := "Ljava/lang/String;"

/-- The descriptor of objects. -/
def object : String := "Ljava/lang/Object;"

/-- An instance method. -/
def method (name descriptor : String) : MethodEntry :=
  { name, descriptor, isStatic := false, isPrivate := false, maxLocals := none, locals := [] }

/-- A static method. -/
def staticMethod (name descriptor : String) : MethodEntry :=
  { method name descriptor with isStatic := true }

/-- A constructor with parameters. -/
def constructor (parameters : String) : MethodEntry :=
  method constructorName ("(" ++ parameters ++ ")V")

/-- A static field. -/
def staticField (name descriptor : String) : FieldEntry := { name, descriptor, isStatic := true }

/-- A class with methods. -/
def classOf (name : String) (methods : List MethodEntry) : ClassEntry :=
  { name, methods, parent := some objectClass, interfaces := [], isInterface := false, fields := [],
    poolCount := 1 }

/-- The class of all objects. -/
def objects : ClassEntry :=
  { classOf objectClass
      [constructor "", method "toString" ("()" ++ string), method "hashCode" "()I",
        method "equals" "(Ljava/lang/Object;)Z", method "getClass" "()Ljava/lang/Class;"] with
    parent := none }

/-- The interface of character sequences. -/
def charSequence : ClassEntry :=
  { classOf "java/lang/CharSequence" [method "length" "()I", method "charAt" "(I)C"] with
    isInterface := true }

/-- The class of strings. -/
def strings : ClassEntry :=
  { classOf "java/lang/String"
      ([constructor "", method "length" "()I", method "isEmpty" "()Z", method "charAt" "(I)C",
        method "trim" ("()" ++ string), method "toUpperCase" ("()" ++ string),
        method "toLowerCase" ("()" ++ string), method "concat" ("(" ++ string ++ ")" ++ string),
        method "substring" ("(I)" ++ string), method "substring" ("(II)" ++ string),
        method "indexOf" ("(" ++ string ++ ")I"), method "contains" "(Ljava/lang/CharSequence;)Z",
        method "startsWith" ("(" ++ string ++ ")Z")] ++
      ["I", "J", "D", "Z", object].map fun parameter =>
        staticMethod "valueOf" ("(" ++ parameter ++ ")" ++ string)) with
    interfaces := ["java/lang/CharSequence"] }

/-- The class that builds strings. -/
def stringBuilder : ClassEntry :=
  { classOf "java/lang/StringBuilder"
      ([constructor "", constructor string, method "toString" ("()" ++ string),
        method "length" "()I", method "reverse" "()Ljava/lang/StringBuilder;"] ++
      ["Z", "C", "I", "J", "F", "D", string, object, "Ljava/lang/CharSequence;"].map
        fun parameter => method "append" ("(" ++ parameter ++ ")Ljava/lang/StringBuilder;")) with
    interfaces := ["java/lang/CharSequence"] }

/-- The class that prints. -/
def printStream : ClassEntry :=
  classOf "java/io/PrintStream"
    ((["print", "println"].flatMap fun name =>
        ["Z", "C", "I", "J", "F", "D", "[C", string, object].map fun parameter =>
          method name ("(" ++ parameter ++ ")V")) ++
      [method "println" "()V", method "flush" "()V"])

/-- The class of the system. -/
def system : ClassEntry :=
  { classOf "java/lang/System"
      [staticMethod "currentTimeMillis" "()J", staticMethod "nanoTime" "()J",
        staticMethod "arraycopy" "(Ljava/lang/Object;ILjava/lang/Object;II)V",
        staticMethod "getProperty" ("(" ++ string ++ ")" ++ string)] with
    fields := ["out", "err"].map fun name => staticField name "Ljava/io/PrintStream;" }

/-- The class of mathematical functions. -/
def math : ClassEntry :=
  { classOf "java/lang/Math"
      (["I", "J", "D"].map (fun type => staticMethod "abs" ("(" ++ type ++ ")" ++ type)) ++
      (["max", "min"].flatMap fun name => ["I", "J", "D"].map fun type =>
        staticMethod name ("(" ++ type ++ type ++ ")" ++ type)) ++
      [staticMethod "sqrt" "(D)D", staticMethod "pow" "(DD)D", staticMethod "random" "()D"]) with
    fields := [staticField "PI" "D"] }

/-- The class of all boxed numbers. -/
def number : ClassEntry :=
  classOf "java/lang/Number"
    [method "intValue" "()I", method "longValue" "()J", method "doubleValue" "()D"]

/-- The class that boxes a primitive type, with the method that reads one from a string. -/
def box (name primitive : String) (reader : Option String) : ClassEntry :=
  let boxed := "Ljava/lang/" ++ name ++ ";"
  classOf ("java/lang/" ++ name)
    ([staticMethod "valueOf" ("(" ++ primitive ++ ")" ++ boxed),
      staticMethod "toString" ("(" ++ primitive ++ ")" ++ string)] ++
    reader.toList.map fun reader => staticMethod reader ("(" ++ string ++ ")" ++ primitive))

/-- The class that boxes a primitive type of numbers. -/
def numberBox (name primitive : String) (reader : Option String) : ClassEntry :=
  { box name primitive reader with
    parent := some number.name
    fields := ["MAX_VALUE", "MIN_VALUE"].map fun name => staticField name primitive }

/-- The class of threads. -/
def thread : ClassEntry :=
  classOf "java/lang/Thread"
    [staticMethod "sleep" "(J)V", staticMethod "currentThread" "()Ljava/lang/Thread;",
      method "getName" ("()" ++ string)]

/-- The class of classes. -/
def classes : ClassEntry := classOf "java/lang/Class" [method "getName" ("()" ++ string)]

/-- The class of all that can be thrown. -/
def throwable : ClassEntry :=
  classOf "java/lang/Throwable"
    [constructor "", constructor string, method "getMessage" ("()" ++ string),
      method "printStackTrace" "()V"]

/-- A class of exceptions. -/
def exception (name parent : String) : ClassEntry :=
  { classOf ("java/lang/" ++ name) [constructor "", constructor string] with
    parent := some ("java/lang/" ++ parent) }

/-- All platform classes, in the order in which they are looked up. -/
def all : List ClassEntry :=
  [objects, charSequence, strings, stringBuilder, system, math, number,
    numberBox "Integer" "I" (some "parseInt"), numberBox "Long" "J" (some "parseLong"),
    numberBox "Double" "D" (some "parseDouble"), box "Boolean" "Z" (some "parseBoolean"),
    box "Character" "C" none, thread, classes, printStream, throwable,
    exception "Exception" "Throwable", exception "RuntimeException" "Exception",
    exception "IllegalStateException" "RuntimeException",
    exception "IllegalArgumentException" "RuntimeException"]

end MethodPatch.Platform
