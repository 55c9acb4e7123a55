/-
**Reading the name of a type back.**

The name of a type in source text is read back as the type itself, unless its innermost class has a
name that source text spells differently: one with dots, with blanks around it, with brackets at its
end, or one of the words of the language.

* `FieldType.IsLegible`: the types whose class has another kind of name;
* `FieldType.ofSourceName?_sourceName_iff`: **exactly these are read back**;
* `FieldType.readsBack_iff`: the same by the innermost type, a primitive one or a class.
-/

import MethodPatch.Types.SourceName

namespace MethodPatch.FieldType

/-! ### Legible types -/

/-- The words of the language that no class goes by. -/
def reservedWords : List String :=
  ["boolean", "byte", "char", "short", "int", "long", "float", "double", "void"]

/-- Class names that can be told from their spelling in source text. -/
structure LegibleName (name : List Char) : Prop where
  named : name ≠ []
  undotted : '.' ∉ name
  begins : ∀ first ∈ name.head?, Text.isBlank first = false
  ends : ∀ last ∈ name.getLast?, Text.isBlank last = false
  unbracketed : ¬ ['[', ']'] <:+ name
  unreserved : String.ofList name ∉ reservedWords

/-- Types whose innermost class, if they have one, has a legible name. -/
def IsLegible : FieldType → Prop
  | .object className => LegibleName className.toList
  | .array component => component.IsLegible
  | _ => True

/-! ### Dots and slashes -/

theorem isBlank_dotted (c : Char) : Text.isBlank (if c = '/' then '.' else c) = Text.isBlank c := by
  split
  · next slash => rw [slash]; decide
  · rfl

theorem eq_of_dotted {c dotted : Char} (other : dotted ≠ '.')
    (same : (if c = '/' then '.' else c) = dotted) : c = dotted := by
  split at same
  · exact absurd same.symm other
  · exact same

/-- Only names without dots survive the way to dots and back. -/
theorem dotsToSlashes_slashesToDots_iff {name : List Char} :
    dotsToSlashes (slashesToDots name) = name ↔ '.' ∉ name := by
  induction name with
  | nil => simp [slashesToDots, dotsToSlashes]
  | cons c rest ih =>
    unfold slashesToDots dotsToSlashes at ih ⊢
    rw [List.map_cons, List.map_cons, List.cons.injEq, ih, List.mem_cons, not_or]
    refine and_congr_left fun _ => ?_
    by_cases slash : c = '/'
    · simp [slash]
    · by_cases dot : c = '.'
      · simp [dot]
      · simp [slash, dot, Ne.symm dot]

/-- The words of the language have neither dots nor slashes. -/
theorem dotted_reserved : ∀ word ∈ reservedWords,
    dotsToSlashes word.toList = word.toList ∧ slashesToDots word.toList = word.toList := by
  decide

theorem reserved_dotted_iff {name : List Char} (undotted : '.' ∉ name) :
    String.ofList (slashesToDots name) ∈ reservedWords ↔ String.ofList name ∈ reservedWords := by
  have back := dotsToSlashes_slashesToDots_iff.mpr undotted
  constructor
  · intro isReserved
    have plain := (dotted_reserved _ isReserved).1
    rw [String.toList_ofList, back] at plain
    rwa [plain]
  · intro isReserved
    have plain := (dotted_reserved _ isReserved).2
    rw [String.toList_ofList] at plain
    rwa [plain]

/-! ### Names without brackets -/

theorem isPrimitive_of_ofKeyword? {word : String} {type : FieldType}
    (read : ofKeyword? word = some type) : type.isPrimitive = true := by
  unfold ofKeyword? at read
  split at read <;> cases read <;> rfl

/-- The words of the language are those of the primitive types, and `void`. -/
theorem ofKeyword?_eq_none_iff {word : String} :
    ofKeyword? word = none ↔ word ∈ reservedWords → word = "void" := by
  constructor
  · intro unread isReserved
    simp only [reservedWords, List.mem_cons, List.not_mem_nil, or_false] at isReserved
    rcases isReserved with rfl | rfl | rfl | rfl | rfl | rfl | rfl | rfl | rfl
    all_goals first | rfl | cases unread
  · intro isVoid
    unfold ofKeyword?
    split
    all_goals first | rfl | exact absurd (isVoid (by decide)) (by decide)

/-- A name is read as a class unless it is empty or a word of the language. -/
theorem ofPlainName?_eq_object {name : List Char} {className : String} :
    ofPlainName? name = some (.object className) ↔
      name ≠ [] ∧ String.ofList name ∉ reservedWords ∧
        className = String.ofList (dotsToSlashes name) := by
  unfold ofPlainName?
  split
  · next type read =>
    constructor
    · rintro ⟨⟩
      cases isPrimitive_of_ofKeyword? read
    · rintro ⟨_, unreserved, _⟩
      rw [ofKeyword?_eq_none_iff.mpr fun isReserved => absurd isReserved unreserved] at read
      cases read
  · next unread =>
    have isVoid := ofKeyword?_eq_none_iff.mp unread
    split
    · next refused =>
      refine ⟨nofun, ?_⟩
      rintro ⟨named, unreserved, _⟩
      rcases refused with rfl | rfl
      · exact absurd rfl named
      · exact absurd (by decide) unreserved
    · next accepted =>
      obtain ⟨named, notVoid⟩ := not_or.mp accepted
      have unreserved : String.ofList name ∉ reservedWords := fun isReserved => notVoid <| by
        rw [← isVoid isReserved, String.toList_ofList]
      rw [Option.some.injEq, object.injEq, eq_comm]
      exact ⟨fun same => ⟨named, unreserved, same⟩, fun holds => holds.2.2⟩

theorem length_trimStart_le (text : List Char) : (Text.trimStart text).length ≤ text.length :=
  (List.dropWhile_sublist _).length_le

theorem length_dotsToSlashes (name : List Char) : (dotsToSlashes name).length = name.length :=
  List.length_map _

/-! ### Names of types -/

theorem ofReversedName?_other {last : Char} {front : List Char}
    (unbracketed : ∀ inner, last = ']' → front = '[' :: inner → False) :
    ofReversedName? (last :: front) =
      if Text.isBlank last then ofReversedName? front
      else ofPlainName? (Text.trimStart (last :: front).reverse) := by
  rw [ofReversedName?.eq_def]
  split
  · next inner same =>
    cases same
    exact (unbracketed inner rfl rfl).elim
  · next same =>
    cases same
    rfl
  · next same => cases same

theorem array_ne_object {read : Option FieldType} {className : String} :
    read.map array ≠ some (object className) := by
  cases read <;> simp

/-- What is read as a class is no longer than the text. -/
theorem length_le_of_ofReversedName? {text : List Char} {className : String}
    (read : ofReversedName? text = some (.object className)) :
    className.toList.length ≤ text.length := by
  induction text using ofReversedName?.induct with
  | case1 inner ih => exact absurd read array_ne_object
  | case2 last front unbracketed blank ih =>
    rw [ofReversedName?_other unbracketed, if_pos blank] at read
    exact Nat.le_trans (ih read) (Nat.le_succ _)
  | case3 last front unbracketed visible =>
    rw [ofReversedName?_other unbracketed, if_neg visible] at read
    obtain ⟨_, _, rfl⟩ := ofPlainName?_eq_object.mp read
    rw [String.toList_ofList, length_dotsToSlashes]
    exact Nat.le_trans (length_trimStart_le _) (Nat.le_of_eq List.length_reverse)
  | case4 => cases read

theorem trimStart_eq_self {text : List Char}
    (visible : ∀ first ∈ text.head?, Text.isBlank first = false) : Text.trimStart text = text := by
  cases text with
  | nil => rfl
  | cons first rest =>
    exact List.dropWhile_cons_of_neg (by simp [visible first rfl])

theorem visible_of_trimStart {text : List Char} (same : Text.trimStart text = text) :
    ∀ first ∈ text.head?, Text.isBlank first = false := by
  intro first isFirst
  have dropped := List.head?_dropWhile_not Text.isBlank text
  rw [show text.dropWhile Text.isBlank = text from same, isFirst] at dropped
  exact dropped

/-- A text is read as a class whose name is just as long if and only if nothing of it is dropped. -/
theorem ofReversedName?_eq_object_iff {text : List Char} {className : String}
    (long : className.toList.length = text.length) :
    ofReversedName? text.reverse = some (.object className) ↔
      text ≠ [] ∧ (∀ first ∈ text.head?, Text.isBlank first = false) ∧
        (∀ last ∈ text.getLast?, Text.isBlank last = false) ∧ ¬ ['[', ']'] <:+ text ∧
        String.ofList text ∉ reservedWords ∧ className = String.ofList (dotsToSlashes text) := by
  rcases List.eq_nil_or_concat text with rfl | ⟨front, last, rfl⟩
  · exact ⟨nofun, fun holds => absurd rfl holds.1⟩
  · rw [List.concat_eq_append] at long ⊢
    have reversed : (front ++ [last]).reverse = last :: front.reverse := by simp
    have isLast : ∀ visible : Char → Prop, (∀ c ∈ (front ++ [last]).getLast?, visible c) ↔
        visible last := by simp
    have bracketed : ['[', ']'] <:+ front ++ [last] ↔
        ∃ inner, last :: front.reverse = ']' :: '[' :: inner := by
      rw [← List.reverse_prefix, reversed]
      exact ⟨fun ⟨inner, whole⟩ => ⟨inner, whole.symm⟩, fun ⟨inner, whole⟩ => ⟨inner, whole.symm⟩⟩
    rw [isLast, reversed]
    cases blank : Text.isBlank last with
    | true =>
      refine ⟨fun read => ?_, nofun⟩
      have unbracketed : ∀ inner, last = ']' → front.reverse = '[' :: inner → False := by
        rintro _ rfl
        cases blank
      rw [ofReversedName?_other unbracketed, if_pos blank] at read
      have short := length_le_of_ofReversedName? read
      simp only [List.length_append, List.length_reverse, List.length_singleton] at long short
      omega
    | false =>
      by_cases brackets : ['[', ']'] <:+ front ++ [last]
      · obtain ⟨inner, whole⟩ := bracketed.mp brackets
        refine ⟨fun read => ?_, fun holds => absurd brackets holds.2.2.2.1⟩
        rw [whole] at read
        exact absurd read array_ne_object
      · have unbracketed : ∀ inner, last = ']' → front.reverse = '[' :: inner → False :=
          fun inner isClosing rest => brackets (bracketed.mpr ⟨inner, by rw [isClosing, rest]⟩)
        rw [ofReversedName?_other unbracketed, if_neg (by simp [blank]), ofPlainName?_eq_object,
          ← reversed, List.reverse_reverse]
        constructor
        · rintro ⟨_, unreserved, whole⟩
          -- Nothing was dropped in front, for what is read would be shorter then.
          have same : Text.trimStart (front ++ [last]) = front ++ [last] := by
            refine (List.dropWhile_suffix _).eq_of_length ?_
            rw [whole, String.toList_ofList, length_dotsToSlashes] at long
            exact long
          rw [same] at unreserved whole
          exact ⟨by simp, visible_of_trimStart same, rfl, brackets, unreserved, whole⟩
        · rintro ⟨named, visible, _, _, unreserved, whole⟩
          rw [trimStart_eq_self visible]
          exact ⟨named, unreserved, whole⟩

theorem bracketed_dotted_iff {name : List Char} :
    ['[', ']'] <:+ slashesToDots name ↔ ['[', ']'] <:+ name := by
  constructor
  · intro bracketed
    obtain ⟨behind, isBehind, same⟩ := List.suffix_map_iff.mp bracketed
    obtain ⟨first, rest, rfl, isOpening, others⟩ := List.map_eq_cons_iff.mp same.symm
    obtain ⟨second, rest, rfl, isClosing, none⟩ := List.map_eq_cons_iff.mp others
    rw [List.map_eq_nil_iff.mp none, eq_of_dotted (by decide) isOpening,
      eq_of_dotted (by decide) isClosing] at isBehind
    exact isBehind
  · intro bracketed
    exact bracketed.map fun c => if c = '/' then '.' else c

theorem visible_dotted {found : Option Char} :
    (∀ c ∈ found.map fun c => if c = '/' then '.' else c, Text.isBlank c = false) ↔
      ∀ c ∈ found, Text.isBlank c = false := by
  cases found <;> simp [isBlank_dotted]

/-- The name of a class is read back if and only if it is legible. -/
theorem ofReversedName?_dotted_iff (className : String) :
    ofReversedName? (slashesToDots className.toList).reverse = some (.object className) ↔
      LegibleName className.toList := by
  have long : className.toList.length = (slashesToDots className.toList).length :=
    (List.length_map _).symm
  have undotted : className = String.ofList (dotsToSlashes (slashesToDots className.toList)) ↔
      '.' ∉ className.toList := by
    rw [← dotsToSlashes_slashesToDots_iff, ← String.toList_inj, String.toList_ofList, eq_comm]
  have named : slashesToDots className.toList ≠ [] ↔ className.toList ≠ [] :=
    not_congr List.map_eq_nil_iff
  have head : (slashesToDots className.toList).head? = _ := List.head?_map
  have last : (slashesToDots className.toList).getLast? = _ := List.getLast?_map
  rw [ofReversedName?_eq_object_iff long, bracketed_dotted_iff, undotted, named, head, last,
    visible_dotted, visible_dotted]
  constructor
  · rintro ⟨named, begins, ends, unbracketed, unreserved, undotted⟩
    exact ⟨named, undotted, begins, ends, unbracketed,
      fun isReserved => unreserved ((reserved_dotted_iff undotted).mpr isReserved)⟩
  · rintro ⟨named, undotted, begins, ends, unbracketed, unreserved⟩
    exact ⟨named, begins, ends, unbracketed,
      fun isReserved => unreserved ((reserved_dotted_iff undotted).mp isReserved), undotted⟩

theorem ofSourceName?_array (component : FieldType) :
    ofSourceName? (array component).sourceName =
      (ofSourceName? component.sourceName).map .array := by
  rw [ofSourceName?, sourceName, String.toList_append, List.reverse_append]
  rfl

/-- **Exactly the legible types are read back** from their names. -/
theorem ofSourceName?_sourceName_iff (type : FieldType) :
    ofSourceName? type.sourceName = some type ↔ type.IsLegible := by
  induction type with
  | object className =>
    unfold ofSourceName? sourceName dottedName
    rw [String.toList_ofList]
    exact ofReversedName?_dotted_iff className
  | array component ih =>
    rw [ofSourceName?_array, IsLegible, ← ih]
    cases ofSourceName? component.sourceName <;> simp
  | _ => exact ⟨fun _ => trivial, fun _ => by decide⟩

/-! ### Innermost types -/

/-- The type that is left when all dimensions of an array are taken off. -/
def innermost : FieldType → FieldType
  | .array component => component.innermost
  | type => type

theorem isLegible_innermost (type : FieldType) : type.innermost.IsLegible ↔ type.IsLegible := by
  induction type with
  | array component ih => exact ih
  | _ => exact Iff.rfl

/-- The innermost type is no array. -/
theorem innermost_cases (type : FieldType) :
    type.innermost.isPrimitive = true ∨ ∃ className, type.innermost = .object className := by
  induction type with
  | array component ih => exact ih
  | object className => exact .inr ⟨className, rfl⟩
  | _ => exact .inl rfl

/-- **A type is read back from its name exactly if its innermost type is primitive or a class with a
legible name**, however many dimensions are around it. -/
theorem readsBack_iff (type : FieldType) :
    ofSourceName? type.sourceName = some type ↔
      type.innermost.isPrimitive = true ∨
        ∃ className, type.innermost = .object className ∧ LegibleName className.toList := by
  rw [ofSourceName?_sourceName_iff, ← isLegible_innermost]
  rcases type.innermost_cases with primitive | ⟨className, isClass⟩
  · refine iff_of_true ?_ (.inl primitive)
    revert primitive
    cases type.innermost with
    | object | array => exact nofun
    | _ => exact fun _ => trivial
  · rw [isClass]
    constructor
    · exact fun legible => .inr ⟨className, rfl, legible⟩
    · rintro (primitive | ⟨_, same, legible⟩)
      · cases primitive
      · cases same
        exact legible

end MethodPatch.FieldType
