/-
**The place of a token.**

A line ends behind a line feed, a carriage return or both. An offset then tells a place: the line is
one more than the lines that ended before it, and the column counts from the end of the last of them.
A lexer counts lines while it skips. Among blanks and in a comment up to the end of the line it sees
every line end, but in a comment in stars it sees line feeds alone, and in a token it sees none.

* `isLineEnd`, `Position.among`: the ends of lines, and the place of an offset among them;
* `TextPart`, `partsOf`: what each character of a text belongs to;
* `isSeenEnd`: the line ends that a lexer sees;
* `Cursor.Placed`: a cursor is at the place that the line ends seen before it tell;
* `Lexer.placed_exact`: **a token is at the place that its offset tells exactly if every line end before
  it is seen**, and what is not seen are carriage returns, unless there was a fault.
-/

import Mathlib.Data.List.Basic
import MethodPatch.Proofs.Syntax.Progress
import MethodPatch.Proofs.Syntax.Spaced

namespace MethodPatch

/-! ### Lines -/

/-- Whether a line ends behind so many characters of a text. A carriage return and the line feed behind
it end one line. -/
def isLineEnd (text : List Char) : Nat → Bool
  | 0 => false
  | last + 1 =>
    text[last]? = some '\n' || (text[last]? = some '\r' && text[last + 1]? ≠ some '\n')

namespace Position

/-- The place of an offset in a text of which the lines end behind some numbers of characters: the line
counts the ends up to the offset, the column the characters behind the last of them. -/
def among (ends : Nat → Bool) (offset : Nat) : Position :=
  let passed := (List.range (offset + 1)).filter ends
  ⟨1 + passed.length, 1 + (offset - passed.getLastD 0), offset⟩

variable {ends fewer : Nat → Bool} {offset : Nat}

theorem among_zero (noEnd : ends 0 = false) : among ends 0 = .start := by
  simp [among, noEnd, List.range_succ, start]

theorem getLastD_passed_le (ends : Nat → Bool) (offset : Nat) :
    ((List.range (offset + 1)).filter ends).getLastD 0 ≤ offset := by
  rcases isLast : ((List.range (offset + 1)).filter ends).getLast? with _ | last
  · rw [List.getLastD_eq_getLast?, isLast]
    exact Nat.zero_le _
  · have isIn := List.mem_range.mp (List.mem_filter.mp (List.mem_of_getLast? isLast)).1
    rw [List.getLastD_eq_getLast?, isLast]
    exact Nat.le_of_lt_succ isIn

/-- One character further on a line has ended or goes on. -/
theorem among_succ (ends : Nat → Bool) (offset : Nat) :
    among ends (offset + 1) =
      if ends (offset + 1) then (among ends offset).nextLine 1 else (among ends offset).forward 1 := by
  have last := getLastD_passed_le ends offset
  unfold among nextLine forward
  rw [List.range_succ (n := offset + 1), List.filter_append]
  by_cases isEnd : ends (offset + 1) = true
  · rw [if_pos isEnd, List.filter_cons_of_pos isEnd, List.filter_nil]
    simp [Nat.add_assoc]
  · rw [if_neg isEnd, List.filter_cons_of_neg isEnd, List.filter_nil, List.append_nil]
    simp only [Position.mk.injEq, true_and, and_true]
    omega

/-- Among some of the ends of lines an offset has the same place as among all of them exactly if none
up to the offset is left out. -/
theorem among_eq_iff (isEnd : ∀ count, fewer count = true → ends count = true) :
    among fewer offset = among ends offset ↔
      ∀ count ≤ offset, ends count = true → fewer count = true := by
  constructor
  · intro same
    have sameLength : ((List.range (offset + 1)).filter fewer).length =
        ((List.range (offset + 1)).filter ends).length :=
      Nat.add_left_cancel (congrArg Position.line same)
    have isSublist : ((List.range (offset + 1)).filter fewer).Sublist
        ((List.range (offset + 1)).filter ends) :=
      List.monotone_filter_right _ isEnd
    have all := isSublist.eq_of_length sameLength
    intro count within ended
    have isIn : count ∈ (List.range (offset + 1)).filter ends :=
      List.mem_filter.mpr ⟨List.mem_range.mpr (Nat.lt_succ_of_le within), ended⟩
    rw [← all] at isIn
    exact (List.mem_filter.mp isIn).2
  · intro all
    have same : (List.range (offset + 1)).filter fewer = (List.range (offset + 1)).filter ends := by
      refine List.filter_congr fun count isIn => ?_
      have within := Nat.le_of_lt_succ (List.mem_range.mp isIn)
      exact Bool.eq_iff_iff.mpr ⟨isEnd count, all count within⟩
    rw [among, same, among]

end Position

/-! ### Parts of a text -/

/-- What a character of a text belongs to. -/
inductive TextPart where
  /-- Blanks, and comments up to the end of a line. -/
  | gap
  /-- Comments in stars. -/
  | comment
  | token
  /-- What is no token and was read as one. -/
  | fault
  deriving DecidableEq

/-- Whether a character ends a line for a lexer, told by the character behind it. -/
def TextPart.endsLine (part : TextPart) (c : Char) (behind : Option Char) : Bool :=
  match part with
  | .gap => c = '\n' || (c = '\r' && behind ≠ some '\n')
  | .comment => c = '\n'
  | .token | .fault => false

namespace Cursor

/-- The parts of blanks and comments. -/
def skippedParts : Place → List Char → List TextPart
  | .blockComment _, [] => []
  | .blockComment _, '*' :: '/' :: rest => .comment :: .comment :: skippedParts .code rest
  | .blockComment start, _ :: rest => .comment :: skippedParts (.blockComment start) rest
  | .lineComment, '\n' :: rest => .gap :: skippedParts .code rest
  | .lineComment, '\r' :: '\n' :: rest => .gap :: .gap :: skippedParts .code rest
  | .lineComment, '\r' :: rest => .gap :: skippedParts .code rest
  | .lineComment, _ :: rest => .gap :: skippedParts .lineComment rest
  | .code, '\n' :: rest => .gap :: skippedParts .code rest
  | .code, '\r' :: '\n' :: rest => .gap :: .gap :: skippedParts .code rest
  | .code, '\r' :: rest => .gap :: skippedParts .code rest
  | .code, ' ' :: rest => .gap :: skippedParts .code rest
  | .code, '\t' :: rest => .gap :: skippedParts .code rest
  | .code, '\x0c' :: rest => .gap :: skippedParts .code rest
  | .code, '/' :: '/' :: rest => .gap :: .gap :: skippedParts .lineComment rest
  | .code, '/' :: '*' :: rest => .comment :: .comment :: skippedParts (.blockComment .start) rest
  | _, _ => []

theorem length_skippedParts_le (place : Place) (text : List Char) :
    (skippedParts place text).length ≤ text.length := by
  fun_induction skippedParts place text
  all_goals simp_all only [List.length_cons, List.length_nil, Nat.zero_le, Nat.le_refl]
  all_goals omega

end Cursor

/-- The place behind some characters of a text, as a lexer counts lines in their parts. -/
def Position.along (position : Position) : List TextPart → List Char → Position
  | part :: parts, c :: rest =>
    along (if part.endsLine c rest.head? then position.nextLine 1 else position.forward 1) parts rest
  | _, _ => position

namespace Cursor

/-- Where a comment begins does not matter to the parts of it. -/
theorem skippedParts_blockComment (first second : Position) (text : List Char) :
    skippedParts (.blockComment first) text = skippedParts (.blockComment second) text := by
  induction text with
  | nil => rfl
  | cons c rest ih =>
    by_cases closes : c = '*' ∧ rest.head? = some '/'
    · obtain ⟨rfl, isHead⟩ := closes
      obtain ⟨others, rfl⟩ := List.head?_eq_some_iff.mp isHead
      rfl
    · have goesOn (start : Position) : skippedParts (.blockComment start) (c :: rest) =
          .comment :: skippedParts (.blockComment start) rest := by
        rw [skippedParts]
        rintro others rfl rfl
        exact closes ⟨rfl, rfl⟩
      rw [goesOn, goesOn, ih]

/-- A carriage return without a line feed ends a line among blanks. -/
theorem endsLine_return {rest : List Char} (noFeed : ∀ others, rest ≠ '\n' :: others) :
    TextPart.gap.endsLine '\r' rest.head? = true := by
  have isOther : rest.head? ≠ some '\n' := by
    intro isHead
    obtain ⟨others, isRest⟩ := List.head?_eq_some_iff.mp isHead
    exact noFeed others isRest
  simp [TextPart.endsLine, isOther]

/-- **Skipping counts the line ends of what it skips.** -/
theorem skipFrom_eq (place : Place) (position : Position) (text : List Char) :
    (skipFrom place position text).2 =
      ⟨position.along (skippedParts place text) text, text.drop (skippedParts place text).length⟩ := by
  fun_induction skipFrom place position text with
  | case7 position rest noFeed ih | case11 position rest noFeed ih =>
    rw [ih, skippedParts, Position.along, endsLine_return noFeed, if_pos rfl, List.length_cons,
      List.drop_succ_cons]
    exact noFeed
  | case16 position rest ih =>
    rw [ih, skippedParts_blockComment position .start]
    rfl
  | case17 place position text =>
    have noParts : skippedParts place text = [] := by rw [skippedParts] <;> assumption
    rw [noParts]
    rfl
  | _ => simp_all [skippedParts, Position.along, TextPart.endsLine, Position.forward, Position.nextLine]

end Cursor

/-- The parts of what is read as a token at the beginning of a text. -/
def Scan.tokenParts (text : List Char) : List TextPart :=
  List.replicate (scanToken text).2 (if (scanToken text).1.isOk then .token else .fault)

/-- What each character of a text belongs to, as a lexer goes through it. It goes on behind a fault. -/
def partsOf (text : List Char) : List TextPart :=
  match _behind : text.drop (Cursor.skippedParts .code text).length with
  | [] => Cursor.skippedParts .code text
  | c :: rest =>
    Cursor.skippedParts .code text ++
      (Scan.tokenParts (c :: rest) ++ partsOf ((c :: rest).drop (Scan.scanToken (c :: rest)).2))
termination_by text.length
decreasing_by
  have longer := Scan.scanToken_pos (List.cons_ne_nil c rest)
  have shorter := congrArg List.length _behind
  simp only [List.length_drop, List.length_cons] at *
  omega

/-- A text is blanks and comments, what is read as a token, and so on. -/
theorem partsOf_eq {text rest : List Char}
    (behind : text.drop (Cursor.skippedParts .code text).length = rest) :
    partsOf text = Cursor.skippedParts .code text ++
      (Scan.tokenParts rest ++ partsOf (rest.drop (Scan.scanToken rest).2)) := by
  have nothing : partsOf [] = [] := by
    rw [partsOf]
    rfl
  rw [partsOf]
  split
  · next isEmpty =>
    obtain rfl := behind.symm.trans isEmpty
    exact (List.append_nil _).symm.trans (congrArg _ nothing.symm)
  · next c others isRest =>
    obtain rfl := behind.symm.trans isRest
    rfl

/-- The line ends of a text that a lexer sees. -/
def isSeenEnd (text : List Char) : Nat → Bool
  | 0 => false
  | last + 1 =>
    match text[last]?, (partsOf text)[last]? with
    | some c, some part => part.endsLine c text[last + 1]?
    | _, _ => false

theorem isLineEnd_of_isSeenEnd {text : List Char} {count : Nat}
    (isSeen : isSeenEnd text count = true) : isLineEnd text count = true := by
  cases count with
  | zero => cases isSeen
  | succ last =>
    rw [isSeenEnd] at isSeen
    split at isSeen
    · next c part isChar isPart =>
      cases part with
      | gap =>
        simp only [TextPart.endsLine, Bool.or_eq_true, Bool.and_eq_true, decide_eq_true_eq] at isSeen
        simpa [isLineEnd, isChar] using isSeen
      | comment =>
        have isFeed := of_decide_eq_true isSeen
        simp [isLineEnd, isChar, isFeed]
      | token | fault => cases isSeen
    · cases isSeen

/-! ### Cursors -/

namespace Cursor

variable {text : List Char} {cursor : Cursor} {parts : List TextPart}

/-- A cursor stands in a text in front of some parts, at the place that the line ends tell which are
seen before it. -/
structure Placed (text : List Char) (parts : List TextPart) (cursor : Cursor) : Prop where
  within : cursor.Within text
  behind : (partsOf text).drop cursor.position.offset = parts
  place : cursor.position = .among (isSeenEnd text) cursor.position.offset

theorem Placed.ofText (text : String) : (ofText text).Placed text.toList (partsOf text.toList) :=
  ⟨.ofText text, rfl, (Position.among_zero rfl).symm⟩

/-- One character further on. -/
theorem Placed.step {part : TextPart} {c : Char} {rest : List Char} {position : Position}
    (placed : Placed text (part :: parts) ⟨position, c :: rest⟩) :
    Placed text parts
      ⟨if part.endsLine c rest.head? then position.nextLine 1 else position.forward 1, rest⟩ := by
  obtain ⟨within, behind, place⟩ := placed
  have isRest := within.rest_eq
  dsimp only at isRest behind place
  have isChar : text[position.offset]? = some c := by
    rw [← List.head?_drop, ← isRest, List.head?_cons]
  have isPart : (partsOf text)[position.offset]? = some part := by
    rw [← List.head?_drop, behind, List.head?_cons]
  have isNext : text[position.offset + 1]? = rest.head? := by
    rw [← List.head?_drop, ← List.drop_drop, ← isRest, List.drop_succ_cons, List.drop_zero]
  have ended : isSeenEnd text (position.offset + 1) = part.endsLine c rest.head? := by
    simp only [isSeenEnd, isChar, isPart, isNext]
  have moved : (if part.endsLine c rest.head? then position.nextLine 1 else position.forward 1) =
      .among (isSeenEnd text) (position.offset + 1) := by
    rw [Position.among_succ, ended, ← place]
  have isOffset (ends : Nat → Bool) : (Position.among ends (position.offset + 1)).offset =
      position.offset + 1 := rfl
  rw [moved]
  refine ⟨.of_suffix ((List.suffix_cons c rest).trans within.isSuffix) ?_, ?_, rfl⟩
  · have covers := within.covers
    dsimp only [List.length_cons] at covers
    rw [isOffset]
    dsimp only
    omega
  · dsimp only
    rw [isOffset, ← List.drop_drop, behind, List.drop_succ_cons, List.drop_zero]

/-- Some characters further on, behind the parts that they belong to. -/
theorem Placed.along {chunk : List TextPart} (placed : cursor.Placed text (chunk ++ parts))
    (fits : chunk.length ≤ cursor.rest.length) :
    Placed text parts ⟨cursor.position.along chunk cursor.rest, cursor.rest.drop chunk.length⟩ := by
  obtain ⟨position, rest⟩ := cursor
  induction chunk generalizing position rest with
  | nil => exact placed
  | cons part others ih =>
    cases rest with
    | nil => exact absurd fits (Nat.not_succ_le_zero _)
    | cons c rest => exact ih _ _ placed.step (Nat.le_of_succ_le_succ fits)

/-- Behind blanks and comments. -/
theorem Placed.skip (placed : cursor.Placed text (partsOf cursor.rest)) :
    cursor.skip.2.Placed text (Scan.tokenParts cursor.skip.2.rest ++
      partsOf (cursor.skip.2.rest.drop (Scan.scanToken cursor.skip.2.rest).2)) := by
  have isSkip : cursor.skip.2 = ⟨cursor.position.along (skippedParts .code cursor.rest) cursor.rest,
      cursor.rest.drop (skippedParts .code cursor.rest).length⟩ := skipFrom_eq ..
  rw [partsOf_eq (congrArg Cursor.rest isSkip).symm] at placed
  have behind := placed.along (length_skippedParts_le ..)
  rwa [← isSkip] at behind

/-- No line ends in what is read as a token. -/
theorem along_tokenParts (position : Position) {text : List Char} :
    position.along (Scan.tokenParts text) text = position.forward (Scan.scanToken text).2 := by
  have none (part : TextPart) (noEnd : ∀ c behind, part.endsLine c behind = false) (count : Nat)
      (text : List Char) (fits : count ≤ text.length) (position : Position) :
      position.along (List.replicate count part) text = position.forward count := by
    induction count generalizing text position with
    | zero => rfl
    | succ count ih =>
      cases text with
      | nil => exact absurd fits (Nat.not_succ_le_zero _)
      | cons c rest =>
        rw [List.replicate_succ, Position.along, noEnd, if_neg Bool.false_ne_true,
          ih rest (Nat.le_of_succ_le_succ fits), Position.forward_forward, Nat.add_comm]
  refine none _ (fun c behind => ?_) _ text (Scan.scanToken_le text) position
  split <;> rfl

/-- Behind what is read as a token. -/
theorem Placed.token (placed : cursor.Placed text (Scan.tokenParts cursor.rest ++ parts)) :
    (cursor.forward (Scan.scanToken cursor.rest).2).Placed text parts := by
  have length : (Scan.tokenParts cursor.rest).length = (Scan.scanToken cursor.rest).2 :=
    List.length_replicate
  have behind := placed.along (length.le.trans (Scan.scanToken_le _))
  rwa [along_tokenParts, length] at behind

end Cursor

/-! ### What is not seen -/

namespace Scan

/-- What is taken from the front of a text is at its front. -/
theorem exists_cons_of_take {text others : List Char} {length : Nat} {c : Char}
    (isTaken : text.take length = c :: others) : ∃ behind, text = c :: behind := by
  have isFront : c :: others <+: text := isTaken ▸ List.take_prefix ..
  obtain ⟨rest, rfl⟩ := isFront
  exact ⟨others ++ rest, rfl⟩

/-- An escape is no line feed, and no line feed is behind it. -/
theorem scanEscape_noFeed {text : List Char} {unit : Text.Unit16} {length : Nat}
    (scanned : scanEscape text = (.ok unit, length)) : '\n' ∉ text.take length := by
  obtain ⟨c, others, isTaken, all⟩ := scanEscape_taken scanned
  rw [isTaken]
  intro isIn
  rcases List.mem_cons.mp isIn with rfl | isIn
  · obtain ⟨behind, rfl⟩ := exists_cons_of_take isTaken
    have isFault : scanEscape ('\n' :: behind) = (.error (.illegalEscape '\n'), 1) := rfl
    rw [isFault] at scanned
    cases scanned
  · rcases all '\n' isIn with isU | isDigit
    · cases isU
    · cases isDigit

theorem scanStringFrom_noFeed {read text : List Char} {taken length : Nat} {value : String}
    (scanned : scanStringFrom read taken text = (.ok value, length)) :
    ∃ more, length = taken + more ∧ '\n' ∉ text.take more := by
  fun_induction scanStringFrom read taken text with
  | case1 | case2 => cases scanned
  | case3 =>
    cases scanned
    refine ⟨1, rfl, ?_⟩
    rw [List.take_succ_cons, List.take_zero, List.mem_singleton]
    decide
  | case4 read taken behind fault took escaped => cases scanned
  | case5 => cases scanned
  | case6 read taken behind unit took escaped decoded found _ _ ih =>
    obtain ⟨more, rfl, none⟩ := ih scanned
    refine ⟨took + more + 1, by omega, ?_⟩
    rw [List.take_succ_cons, List.take_add, List.mem_cons, List.mem_append, not_or, not_or]
    exact ⟨by decide, scanEscape_noFeed escaped, none⟩
  | case7 read taken c behind noEnd _ _ ih =>
    obtain ⟨more, rfl, none⟩ := ih scanned
    refine ⟨more + 1, by omega, ?_⟩
    rw [List.take_succ_cons, List.mem_cons, not_or]
    exact ⟨fun isFeed => noEnd (.inl isFeed.symm), none⟩

theorem scanUnit_noFeed {text : List Char} {unit : Text.Unit16} {length : Nat}
    (scanned : scanUnit text = (.ok unit, length)) : '\n' ∉ text.take length := by
  unfold scanUnit at scanned
  split at scanned
  · cases scanned
  · next c behind =>
    split at scanned
    · cases scanned
    · next noEnd =>
      have isOther : '\n' ≠ c := fun isFeed => noEnd (.inr isFeed.symm)
      split at scanned
      · obtain ⟨escaped, rfl⟩ := Prod.mk.inj scanned
        rw [List.take_succ_cons, List.mem_cons, not_or]
        exact ⟨isOther, scanEscape_noFeed (Prod.ext escaped rfl)⟩
      · split at scanned
        · cases scanned
        · cases scanned
          rw [List.take_succ_cons, List.take_zero, List.mem_singleton]
          exact isOther

theorem scanString_noFeed {text : List Char} {token : Token} {length : Nat}
    (scanned : scanString text = (.ok token, length)) : '\n' ∉ text.take length := by
  unfold scanString at scanned
  rcases read : scanStringFrom [] 0 text with ⟨_ | value, took⟩ <;> rw [read] at scanned
  · cases scanned
  · cases scanned
    obtain ⟨more, rfl, none⟩ := scanStringFrom_noFeed read
    rwa [Nat.zero_add]

theorem scanCharacter_noFeed {text : List Char} {token : Token} {length : Nat}
    (scanned : scanCharacter text = (.ok token, length)) : '\n' ∉ text.take length := by
  unfold scanCharacter at scanned
  split at scanned
  · cases scanned
  · next unit took read =>
    split at scanned
    · next ends =>
      cases scanned
      rw [List.take_add, List.take_one, ends, List.mem_append, not_or]
      exact ⟨scanUnit_noFeed read, by decide⟩
    · cases scanned

/-- **No token has a line feed in it.** A carriage return may stand between the quotes of a character. -/
theorem scanToken_noFeed {text : List Char} {token : Token} {length : Nat} (more : text ≠ [])
    (scanned : scanToken text = (.ok token, length)) : '\n' ∉ text.take length := by
  obtain ⟨first, rest, rfl⟩ := List.exists_cons_of_ne_nil more
  have written := scanToken_writtenAs scanned
  generalize isTaken : (first :: rest).take length = chars at written
  -- The kind of a token tells its characters, but for what stands between two quotes.
  cases written with
  | number isNumber all => exact fun isIn => absurd (all _ isIn) (by decide)
  | word isWord all => exact fun isIn => absurd (all _ isIn) (by decide)
  | punct mark => cases mark <;> decide
  | string value quoted =>
    obtain ⟨behind, isText⟩ := exists_cons_of_take isTaken
    obtain ⟨rfl, rfl⟩ := List.cons.inj isText
    obtain ⟨told, rfl⟩ := Prod.mk.inj scanned
    rw [List.take_succ_cons] at isTaken
    rw [← isTaken, List.mem_cons, not_or]
    exact ⟨by decide, scanString_noFeed (Prod.ext told rfl)⟩
  | char unit quoted =>
    obtain ⟨behind, isText⟩ := exists_cons_of_take isTaken
    obtain ⟨rfl, rfl⟩ := List.cons.inj isText
    obtain ⟨told, rfl⟩ := Prod.mk.inj scanned
    rw [List.take_succ_cons] at isTaken
    rw [← isTaken, List.mem_cons, not_or]
    exact ⟨by decide, scanCharacter_noFeed (Prod.ext told rfl)⟩

end Scan

theorem Cursor.isSkipped_of_mem {place : Place} {text : List Char} {part : TextPart}
    (isIn : part ∈ skippedParts place text) : part = .gap ∨ part = .comment := by
  fun_induction skippedParts place text with
  | case1 | case16 => cases isIn
  | _ =>
    simp only [List.mem_cons] at isIn
    tauto

/-- Every character of a text has a part. -/
theorem length_partsOf (text : List Char) : (partsOf text).length = text.length := by
  have skipped := Cursor.length_skippedParts_le .code text
  fun_induction partsOf text with
  | case1 text isEmpty =>
    have none := congrArg List.length isEmpty
    rw [List.length_drop, List.length_nil] at none
    omega
  | case2 text c rest isRest ih =>
    have further := ih (Cursor.length_skippedParts_le ..)
    have taken := Scan.scanToken_le (c :: rest)
    have behind := congrArg List.length isRest
    rw [List.length_drop] at further behind
    rw [List.length_append, List.length_append, further, Scan.tokenParts, List.length_replicate]
    omega

/-- The part of a character is told by the first blanks, by what is read as a token behind them, or
further on in the same way. -/
theorem partsOf_induction (holds : TextPart → Char → Prop)
    (skipped : ∀ part c, part = .gap ∨ part = .comment → holds part c)
    (token : ∀ rest, rest ≠ [] → ∀ c ∈ rest.take (Scan.scanToken rest).2,
      holds (if (Scan.scanToken rest).1.isOk then .token else .fault) c)
    {text : List Char} {index : Nat} {part : TextPart} {c : Char}
    (isPart : (partsOf text)[index]? = some part) (isChar : text[index]? = some c) : holds part c := by
  induction size : text.length using Nat.strongRecOn generalizing text index with
  | ind count ih =>
    rw [partsOf_eq rfl] at isPart
    by_cases inFront : index < (Cursor.skippedParts .code text).length
    · rw [List.getElem?_append_left inFront] at isPart
      exact skipped part c (Cursor.isSkipped_of_mem (List.mem_of_getElem? isPart))
    · have isBehind := Nat.le_of_not_lt inFront
      rw [List.getElem?_append_right isBehind] at isPart
      obtain ⟨offset, rfl⟩ := Nat.exists_eq_add_of_le isBehind
      rw [Nat.add_sub_cancel_left] at isPart
      rw [← List.getElem?_drop] at isChar
      generalize isRest : text.drop (Cursor.skippedParts .code text).length = rest at isPart isChar
      have more : rest ≠ [] := by
        rintro rfl
        cases isChar
      by_cases inToken : offset < (Scan.tokenParts rest).length
      · rw [List.getElem?_append_left inToken] at isPart
        have isKind := List.eq_of_mem_replicate (List.mem_of_getElem? isPart)
        rw [Scan.tokenParts, List.length_replicate] at inToken
        rw [isKind]
        refine token rest more c (List.mem_of_getElem? (i := offset) ?_)
        rw [List.getElem?_take_of_lt inToken, isChar]
      · have isFurther := Nat.le_of_not_lt inToken
        rw [List.getElem?_append_right isFurther] at isPart
        obtain ⟨later, rfl⟩ := Nat.exists_eq_add_of_le isFurther
        rw [Nat.add_sub_cancel_left] at isPart
        rw [Scan.tokenParts, List.length_replicate, ← List.getElem?_drop] at isChar
        refine ih _ ?_ isPart isChar rfl
        have shorter := congrArg List.length isRest
        have longer := Scan.scanToken_pos more
        have isMore := List.length_pos_of_ne_nil more
        rw [List.length_drop] at shorter ⊢
        omega

/-- **What a lexer does not see are carriage returns** in comments in stars and between the quotes of a
character, but for what it read where there was a fault. -/
theorem unseen {text : List Char} {last : Nat} (isEnd : isLineEnd text (last + 1) = true)
    (notSeen : isSeenEnd text (last + 1) = false) :
    (text[last]? = some '\r' ∧
        ((partsOf text)[last]? = some .comment ∨ (partsOf text)[last]? = some .token)) ∨
      (partsOf text)[last]? = some .fault := by
  have ends : text[last]? = some '\n' ∨
      text[last]? = some '\r' ∧ text[last + 1]? ≠ some '\n' := by
    simpa [isLineEnd] using isEnd
  have exists_char : ∃ c, text[last]? = some c := by
    rcases ends with isFeed | ⟨isReturn, -⟩
    · exact ⟨_, isFeed⟩
    · exact ⟨_, isReturn⟩
  obtain ⟨c, isChar⟩ := exists_char
  have within : last < (partsOf text).length := by
    rw [length_partsOf]
    exact (List.getElem?_eq_some_iff.mp isChar).1
  have isPart := List.getElem?_eq_getElem within
  generalize (partsOf text)[last] = part at isPart
  rw [isSeenEnd, isChar, isPart] at notSeen
  dsimp only at notSeen
  rw [isChar] at ends
  cases part with
  | fault => exact .inr isPart
  | gap =>
    refine absurd ?_ (Bool.eq_false_iff.mp notSeen)
    simpa [TextPart.endsLine] using ends
  | comment =>
    rcases ends with isFeed | ⟨isReturn, -⟩
    · obtain rfl := Option.some.inj isFeed
      cases notSeen
    · exact .inl ⟨isChar.trans isReturn, .inl isPart⟩
  | token =>
    have noFeed : TextPart.token = .token → c ≠ '\n' := by
      refine partsOf_induction (fun part c => part = .token → c ≠ '\n') ?_ ?_ isPart isChar
      · rintro _ _ (rfl | rfl) ⟨⟩
      · intro rest more c isIn isToken isFeed
        rcases scanned : Scan.scanToken rest with ⟨fault | token, length⟩
        · rw [scanned] at isToken
          cases isToken
        · rw [scanned, isFeed] at isIn
          exact Scan.scanToken_noFeed more scanned isIn
    rcases ends with isFeed | ⟨isReturn, -⟩
    · exact absurd (Option.some.inj isFeed) (noFeed rfl)
    · exact .inl ⟨isChar.trans isReturn, .inr isPart⟩

/-- A text that is read up to its end has no fault in it. -/
theorem Cursor.noFault_of_lexemesFrom {cursor : Cursor} {read : List Lexeme} {place : Position}
    (ends : (cursor.lexemesFrom read).finish = .ok place) : .fault ∉ partsOf cursor.rest := by
  have noneSkipped (text : List Char) : .fault ∉ skippedParts .code text := by
    intro isIn
    rcases isSkipped_of_mem isIn with isGap | isComment
    · cases isGap
    · cases isComment
  have isSkip (cursor : Cursor) : cursor.skip.2 =
      ⟨cursor.position.along (skippedParts .code cursor.rest) cursor.rest,
        cursor.rest.drop (skippedParts .code cursor.rest).length⟩ := skipFrom_eq ..
  fun_induction lexemesFrom read cursor with
  | case1 => cases ends
  | case2 read cursor position skipped =>
    have isEmpty := congrArg Cursor.rest ((isSkip cursor).symm.trans (congrArg Prod.snd skipped))
    rw [partsOf]
    split
    · exact noneSkipped _
    · next isRest => cases isRest.symm.trans isEmpty
  | case3 => cases ends
  | case4 read cursor position c rest skipped token length scanned ih =>
    have isRest := congrArg Cursor.rest ((isSkip cursor).symm.trans (congrArg Prod.snd skipped))
    have isToken : Scan.tokenParts (c :: rest) = List.replicate length .token := by
      rw [Scan.tokenParts, scanned]
      rfl
    rw [partsOf_eq isRest, isToken, scanned]
    intro isIn
    rcases List.mem_append.mp isIn with isSkipped | isBehind
    · exact noneSkipped _ isSkipped
    rcases List.mem_append.mp isBehind with inToken | isFurther
    · cases List.eq_of_mem_replicate inToken
    · exact ih ends isFurther

/-! ### Lexers -/

/-- A place is told by the line ends that are seen up to its offset. So it is the place that the offset
tells exactly if all of them are seen. -/
structure Position.TellsLines (text : List Char) (place : Position) : Prop where
  seen : place = .among (isSeenEnd text) place.offset
  right_iff : place = .among (isLineEnd text) place.offset ↔
    ∀ count ≤ place.offset, isLineEnd text count = true → isSeenEnd text count = true

theorem Position.tellsLines_of_seen {text : List Char} {place : Position}
    (seen : place = .among (isSeenEnd text) place.offset) : place.TellsLines text := by
  refine ⟨seen, ?_⟩
  have isEnd (count : Nat) (isSeen : isSeenEnd text count = true) : isLineEnd text count = true :=
    isLineEnd_of_isSeenEnd isSeen
  have same : among (isSeenEnd text) place.offset = among (isLineEnd text) place.offset ↔ _ :=
    among_eq_iff isEnd
  rwa [← seen] at same

namespace Lexer

variable {text : List Char} {lexer : Lexer}

/-- A lexer goes on with its text, and its places are told by the line ends that it sees. -/
structure Placed (text : List Char) (lexer : Lexer) : Prop where
  cursor : lexer.cursor.Placed text (partsOf lexer.cursor.rest)
  token : lexer.tokenPosition = .among (isSeenEnd text) lexer.tokenPosition.offset

theorem Placed.ofText (text : String) : (ofText text).Placed text.toList :=
  ⟨.ofText text, (Position.among_zero rfl).symm⟩

theorem Placed.scan (placed : lexer.Placed text) : lexer.scan.2.Placed text := by
  have skipped := placed.cursor.skip
  rcases scan_stops_or_reads lexer with ⟨isEnd, error, isError⟩ | isToken
  · rw [isError]
    refine ⟨?_, placed.token⟩
    rw [isEnd] at skipped
    dsimp only
    rw [isEnd]
    exact skipped
  · rw [isToken]
    exact ⟨skipped.token, skipped.place⟩

theorem Placed.next (placed : lexer.Placed text) : lexer.next.2.Placed text := by
  unfold Lexer.next
  split
  · exact ⟨placed.cursor, placed.token⟩
  · exact placed.scan

theorem Placed.peek (placed : lexer.Placed text) : lexer.peek.2.Placed text := by
  have next := placed.next
  unfold Lexer.peek
  split
  · next taken =>
    rw [taken] at next
    exact ⟨next.cursor, next.token⟩
  · next taken =>
    rw [taken] at next
    exact next

/-- Whatever a lexer gives is at a place that the line ends tell which it has seen. -/
theorem Reads.tellsLines {items : List Lexeme} {finish : Except SourceError Position}
    (reads : lexer.Reads items finish) (placed : lexer.Placed text) :
    (∀ lexeme ∈ items, lexeme.position.TellsLines text) ∧
      ∀ place, finish = .ok place → place.TellsLines text := by
  induction reads with
  | @ends lexer behind taken =>
    have next := placed.next
    rw [taken] at next
    refine ⟨nofun, ?_⟩
    rintro _ ⟨⟩
    exact Position.tellsLines_of_seen next.token
  | fails taken => exact ⟨nofun, nofun⟩
  | token taken isToken others ih =>
    have next := placed.next
    rw [taken] at next
    obtain ⟨further, last⟩ := ih next
    exact ⟨List.forall_mem_cons.mpr ⟨Position.tellsLines_of_seen next.token, further⟩, last⟩

/-- **A token is at the place that the line ends tell which a lexer sees**, and so it is at the place of
its offset exactly if none before it is left out. This holds of the place of a lexer's last token,
whatever it was asked for, of all tokens of a text, and of its end. What is left out are carriage
returns without a line feed, in comments in stars and between the quotes of a character, and what is
read with a fault; a text that is read up to its end has no fault. -/
theorem placed_exact (text : String) :
    (∀ requests, (after text requests).tokenPosition.TellsLines text.toList) ∧
      (∀ lexeme ∈ (lexemes text).items, lexeme.position.TellsLines text.toList) ∧
      (∀ place, (lexemes text).finish = .ok place →
        place.TellsLines text.toList ∧ .fault ∉ partsOf text.toList) ∧
      ∀ last, isLineEnd text.toList (last + 1) = true → isSeenEnd text.toList (last + 1) = false →
        (text.toList[last]? = some '\r' ∧ ((partsOf text.toList)[last]? = some .comment ∨
            (partsOf text.toList)[last]? = some .token)) ∨
          (partsOf text.toList)[last]? = some .fault := by
  have placed : (ofText text).Placed text.toList := .ofText text
  obtain ⟨items, finish⟩ := (reads_lexemes text).tellsLines placed
  refine ⟨fun requests => ?_, items, fun place ends => ⟨finish place ends, ?_⟩, fun last => unseen⟩
  · have asked : (after text requests).Placed text.toList :=
      after_induction placed Placed.next Placed.peek requests
    exact Position.tellsLines_of_seen asked.token
  · exact Cursor.noFault_of_lexemesFrom ends

/-- A carriage return in a comment, and one between quotes: the line that begins behind it is not
counted. -/
theorem placed_behind_return :
    ((lexemes "/*\r*/x").items = [⟨.name "x", ⟨1, 6, 5⟩⟩] ∧
      .among (isLineEnd "/*\r*/x".toList) 5 = (⟨2, 3, 5⟩ : Position)) ∧
    (lexemes "'\r' x").items = [⟨.char 13, ⟨1, 1, 0⟩⟩, ⟨.name "x", ⟨1, 5, 4⟩⟩] ∧
      .among (isLineEnd "'\r' x".toList) 4 = (⟨2, 3, 4⟩ : Position) := by
  decide +kernel

end Lexer

end MethodPatch
