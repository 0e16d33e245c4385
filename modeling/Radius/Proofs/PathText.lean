import Mathlib.Algebra.Group.Nat.Defs
import Mathlib.Data.List.TakeWhile
import Radius.Proofs.Computation
import Radius.TypePath

/-!
The text of a path. A path is read from a text exactly if the parts between the points are numbers
of 32 bits, the first of them an octet, and then it has these numbers as its segments. A number may
have a blank margin, a plus sign and leading zeros. A path is shown with none of these, and is read
back from its text.
-/

namespace Radius

namespace Text

/-- A number as it may be written: digits, and perhaps a plus sign in front of them. -/
inductive Numeral : List Char → Nat → Prop
  | plain {digits : List Char} (some : digits ≠ [])
      (all : ∀ character ∈ digits, character.isDigit = true) :
      Numeral digits (Nat.ofDigitChars 10 digits 0)
  | signed {digits : List Char} (some : digits ≠ [])
      (all : ∀ character ∈ digits, character.isDigit = true) :
      Numeral ('+' :: digits) (Nat.ofDigitChars 10 digits 0)

inductive Spaced : List Char → Nat → Prop
  | intro {left numeral right : List Char} {number : Nat}
      (before : ∀ character ∈ left, isBlank character = true) (written : Numeral numeral number)
      (behind : ∀ character ∈ right, isBlank character = true) :
      Spaced (left ++ numeral ++ right) number

section Margins

variable {text left core right : List Char}

theorem exists_margin (text : List Char) : ∃ left right, text = left ++ trim text ++ right ∧
    (∀ character ∈ left, isBlank character = true) ∧
    ∀ character ∈ right, isBlank character = true := by
  let rest := (text.dropWhile isBlank).reverse
  have back : trim text ++ (rest.takeWhile isBlank).reverse = text.dropWhile isBlank := by
    rw [trim, ← List.reverse_append, List.takeWhile_append_dropWhile, List.reverse_reverse]
  refine ⟨text.takeWhile isBlank, (rest.takeWhile isBlank).reverse, ?_, ?_, ?_⟩
  · rw [List.append_assoc, back, List.takeWhile_append_dropWhile]
  · intro character member
    exact List.mem_takeWhile_imp member
  · intro character member
    exact List.mem_takeWhile_imp (List.mem_reverse.mp member)

theorem dropWhile_margin (before : ∀ character ∈ left, isBlank character = true) (some : core ≠ [])
    (solid : ∀ character ∈ core, isBlank character = false) :
    (left ++ (core ++ right)).dropWhile isBlank = core ++ right := by
  rw [List.dropWhile_append_of_pos before]
  cases core with
  | nil => contradiction
  | cons first rest =>
      rw [List.cons_append, List.dropWhile_cons_of_neg]
      simp [solid first]

theorem trim_margin (before : ∀ character ∈ left, isBlank character = true) (some : core ≠ [])
    (solid : ∀ character ∈ core, isBlank character = false)
    (behind : ∀ character ∈ right, isBlank character = true) :
    trim (left ++ core ++ right) = core := by
  have back : (right.reverse ++ (core.reverse ++ [])).dropWhile isBlank = core.reverse ++ [] := by
    refine dropWhile_margin ?_ ?_ ?_
    · exact fun character member => behind character (List.mem_reverse.mp member)
    · exact fun none => some (List.reverse_eq_nil_iff.mp none)
    · exact fun character member => solid character (List.mem_reverse.mp member)
  rw [List.append_nil] at back
  rw [trim, List.append_assoc, dropWhile_margin before some solid, List.reverse_append, back,
    List.reverse_reverse]

end Margins

section Numbers

variable {text part : List Char} {number limit : Nat}

theorem Numeral.ne_nil (written : Numeral text number) : text ≠ [] := by
  cases written with
  | plain some _ => exact some
  | signed _ _ => exact List.cons_ne_nil _ _

theorem Numeral.solid (written : Numeral text number) :
    ∀ character ∈ text, isBlank character = false := by
  intro character member
  cases written with
  | plain _ all => exact not_isBlank_of_isDigit character (all character member)
  | signed _ all =>
      rcases List.mem_cons.mp member with rfl | digit
      · decide
      · exact not_isBlank_of_isDigit character (all character digit)

theorem readDecimal?_eq_some_iff_of_sign {digits : List Char}
    (unsigned : (if text.head? = some '+' then text.tail else text) = digits) :
    readDecimal? limit text = some number ↔
      (digits ≠ [] ∧ ∀ character ∈ digits, character.isDigit = true) ∧
        Nat.ofDigitChars 10 digits 0 = number ∧ number ≤ limit := by
  rw [readDecimal?, unsigned]
  simp only [List.all_eq_true]
  split
  · rename_i read
    constructor
    · rintro ⟨⟩
      exact ⟨⟨read.1, read.2.1⟩, rfl, read.2.2⟩
    · rintro ⟨-, rfl, -⟩
      rfl
  · rename_i unread
    refine iff_of_false (Option.some_ne_none number).symm ?_
    rintro ⟨⟨some, all⟩, rfl, fits⟩
    exact unread ⟨some, all, fits⟩

theorem head_of_digits (all : ∀ character ∈ text, character.isDigit = true) :
    text.head? ≠ some '+' := by
  intro signed
  have plus := all '+' (List.mem_of_head? signed)
  contradiction

theorem readDecimal?_eq_some_iff :
    readDecimal? limit text = some number ↔ Numeral text number ∧ number ≤ limit := by
  by_cases signed : text.head? = some '+'
  · obtain ⟨digits, rfl⟩ := List.head?_eq_some_iff.mp signed
    rw [readDecimal?_eq_some_iff_of_sign (if_pos signed), List.tail_cons]
    constructor
    · rintro ⟨⟨some, all⟩, rfl, fits⟩
      exact ⟨.signed some all, fits⟩
    · rintro ⟨written, fits⟩
      cases written with
      | plain _ all => exact absurd signed (head_of_digits all)
      | signed some all => exact ⟨⟨some, all⟩, rfl, fits⟩
  · rw [readDecimal?_eq_some_iff_of_sign (if_neg signed)]
    constructor
    · rintro ⟨⟨some, all⟩, rfl, fits⟩
      exact ⟨.plain some all, fits⟩
    · rintro ⟨written, fits⟩
      cases written with
      | plain some all => exact ⟨⟨some, all⟩, rfl, fits⟩
      | signed _ _ => exact absurd rfl signed

theorem numeral_toDigits (number : Nat) : Numeral (Nat.toDigits 10 number) number :=
  (readDecimal?_eq_some_iff.mp (readDecimal?_toDigits number number (Nat.le_refl number))).1

theorem Numeral.spaced (written : Numeral text number) : Spaced text number := by
  have bare : Spaced ([] ++ text ++ []) number := .intro nofun written nofun
  rwa [List.nil_append, List.append_nil] at bare

theorem spaced_iff_trim : Spaced part number ↔ Numeral (trim part) number := by
  constructor
  · rintro ⟨before, written, behind⟩
    rw [trim_margin before written.ne_nil written.solid behind]
    exact written
  · intro written
    obtain ⟨left, right, split, before, behind⟩ := exists_margin part
    rw [split]
    exact .intro before written behind

end Numbers

end Text

namespace TypePath

open Text (Spaced)

variable {source : String} {path : TypePath}

theorem readSegment?_eq_some_iff {part : List Char} {segment : UInt32} :
    readSegment? part = some segment ↔ Spaced part segment.toNat := by
  rw [readSegment?, Option.map_eq_some_iff, Text.spaced_iff_trim]
  simp only [Text.readDecimal?_eq_some_iff]
  constructor
  · rintro ⟨number, ⟨written, fits⟩, rfl⟩
    rwa [UInt32.toNat_ofNat_of_lt' (Nat.lt_succ_of_le fits)]
  · intro written
    exact ⟨segment.toNat, ⟨written, Nat.le_of_lt_succ segment.toNat_lt⟩, UInt32.ofNat_toNat⟩

theorem toUInt32_toUInt8 {segment : UInt32} (octet : segment ≤ 255) :
    segment.toUInt8.toUInt32 = segment := by
  have bound : segment.toNat ≤ 255 := UInt32.le_iff_toNat_le.mp octet
  rw [← UInt32.toNat_inj, UInt8.toNat_toUInt32, UInt32.toNat_toUInt8]
  exact Nat.mod_eq_of_lt (Nat.lt_succ_of_le bound)

theorem head_le (path : TypePath) : path.head.toUInt32 ≤ 255 :=
  UInt32.le_iff_toNat_le.mpr (Nat.le_of_lt_succ path.head.toNat_lt)

theorem ofSegments_eq_ok_iff {segments : List UInt32} :
    ofSegments segments = .ok path ↔ path.segments = segments := by
  cases segments with
  | nil => exact iff_of_false nofun nofun
  | cons first tail =>
      rw [ofSegments]
      split
      · rename_i octet
        constructor
        · rintro ⟨⟩
          rw [segments, toUInt32_toUInt8 octet]
        · rintro ⟨⟩
          rw [UInt8.toUInt8_toUInt32]
      · rename_i large
        refine iff_of_false nofun ?_
        rintro ⟨⟩
        exact large path.head_le

theorem read_eq_ok_iff : read source = .ok path ↔
    List.Forall₂ (fun part segment => Spaced part segment.toNat) (source.toList.splitOn '.')
      path.segments := by
  simp only [← readSegment?_eq_some_iff, ← Result.mapM_eq_some_iff]
  rw [read]
  split
  · rename_i unread
    rw [unread]
    exact iff_of_false nofun nofun
  · rename_i segments found
    rw [found, ofSegments_eq_ok_iff, Option.some.injEq, eq_comm]

theorem splitOn_characters (path : TypePath) :
    path.text.toList.splitOn '.' =
      path.segments.map fun segment => Nat.toDigits 10 segment.toNat := by
  rw [text, String.toList_ofList, characters]
  refine List.splitOn_intercalate '.' ?_ ?_
  · intro part member point
    obtain ⟨segment, -, rfl⟩ := List.mem_map.mp member
    have digit := Nat.isDigit_of_mem_toDigits (by decide) (by decide) point
    contradiction
  · exact List.cons_ne_nil _ _

theorem read_text (path : TypePath) : read path.text = .ok path := by
  rw [read_eq_ok_iff, splitOn_characters, List.forall₂_map_left_iff, List.forall₂_same]
  intro segment _
  exact (Text.numeral_toDigits segment.toNat).spaced

theorem text_injective : Function.Injective text := by
  intro path other same
  have read := read_text path
  rw [same, read_text other] at read
  exact (Except.ok.inj read).symm

theorem exists_numbers {first : Nat} {later : List Nat} (octet : first ≤ 255)
    (fits : ∀ number ∈ later, number < 2 ^ 32) :
    ∃ path : TypePath, path.segments.map UInt32.toNat = first :: later := by
  refine ⟨⟨UInt8.ofNat first, later.map UInt32.ofNat⟩, ?_⟩
  have tail : (later.map UInt32.ofNat).map UInt32.toNat = later := by
    rw [List.map_map, List.map_congr_left (g := id), List.map_id]
    intro number member
    exact UInt32.toNat_ofNat_of_lt' (fits number member)
  rw [segments, List.map_cons, tail, UInt8.toNat_toUInt32,
    UInt8.toNat_ofNat_of_lt' (Nat.lt_succ_of_le octet)]

theorem read_numbers_iff {numbers : List Nat} :
    (∃ path, read source = .ok path ∧ path.segments.map UInt32.toNat = numbers) ↔
      List.Forall₂ Spaced (source.toList.splitOn '.') numbers ∧
        (∀ number ∈ numbers, number < 2 ^ 32) ∧ ∀ first ∈ numbers.head?, first ≤ 255 := by
  constructor
  · rintro ⟨path, found, rfl⟩
    refine ⟨List.forall₂_map_right_iff.mpr (read_eq_ok_iff.mp found), ?_, ?_⟩
    · intro number member
      obtain ⟨segment, -, rfl⟩ := List.mem_map.mp member
      exact segment.toNat_lt
    · rintro first ⟨⟩
      exact UInt32.le_iff_toNat_le.mp path.head_le
  · rintro ⟨written, fits, octet⟩
    cases numbers with
    | nil => exact absurd (List.forall₂_nil_right_iff.mp written) (List.splitOn_ne_nil '.' _)
    | cons first later =>
        obtain ⟨path, same⟩ := exists_numbers (octet first rfl)
          fun number member => fits number (List.mem_cons_of_mem first member)
        rw [← same, List.forall₂_map_right_iff, ← read_eq_ok_iff] at written
        exact ⟨path, written, same⟩

/-- Paths and their texts. A path is read back from its text, so no two paths have the same text. A
text is read exactly if the parts between its points are numbers of 32 bits, the first of them an
octet, each with digits, perhaps a plus sign in front of them, and perhaps a blank margin. The path
then has these numbers in their order, and its text is read as the same path. -/
theorem read_grammar :
    (∀ path : TypePath, read path.text = .ok path) ∧
      Function.Injective text ∧
      (∀ (source : String) (numbers : List Nat),
        (∃ path, read source = .ok path ∧ path.segments.map UInt32.toNat = numbers) ↔
          List.Forall₂ Spaced (source.toList.splitOn '.') numbers ∧
            (∀ number ∈ numbers, number < 2 ^ 32) ∧ ∀ first ∈ numbers.head?, first ≤ 255) ∧
      ∀ (source : String) (path : TypePath), read source = .ok path →
        read path.text = read source := by
  refine ⟨read_text, text_injective, fun source numbers => read_numbers_iff, ?_⟩
  intro source path found
  rw [found, read_text]

example : read " +026 . 9.1" = .ok ⟨26, [9, 1]⟩ ∧ read "+ 26" = .error (.unreadable "+ 26") := by
  decide

end TypePath

end Radius
