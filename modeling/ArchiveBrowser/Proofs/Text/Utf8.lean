import ArchiveBrowser.Proofs.Text.ByteOrder
import ArchiveBrowser.Text.Utf8
import Mathlib.Data.List.TakeWhile

/-!
# Reading back the bytes of a text

The bytes of a text are read as the text. What is shown as a character other than a replacement
is there as that character is written, and so bytes in which nothing is replaced are those of the
text that is shown. The byte of an ASCII letter is in no other character.
-/

set_option autoImplicit false

namespace ArchiveBrowser.Text.Utf8

open String (utf8EncodeChar)

/-- The code point of a lead byte with these bytes behind it. -/
def code (lead : UInt8) (tail : Bytes) : Nat :=
  tail.foldl (fun code byte => code * 0x40 + byte.toNat % 0x40) (leadBits lead tail.length)

/-- What the bytes behind a lead byte have to be. -/
def Continues (low high : UInt8) : Bytes → Prop
  | [] => True
  | next :: later => low ≤ next ∧ next ≤ high ∧ ∀ byte ∈ later, isContinuation byte = true

/-- What a lead byte says about the sequence that it starts. -/
def Starts (lead : UInt8) (count : Nat) (low high : UInt8) : Prop :=
  count = 0 ∧ lead.toNat < 0x80 ∧ low = 0 ∧ high = 0 ∨
    count = 1 ∧ 0xc2 ≤ lead.toNat ∧ lead.toNat ≤ 0xdf ∧ low = 0x80 ∧ high = 0xbf ∨
    count = 2 ∧ (lead.toNat = 0xe0 ∧ low = 0xa0 ∧ high = 0xbf ∨
      lead.toNat = 0xed ∧ low = 0x80 ∧ high = 0x9f ∨
      0xe1 ≤ lead.toNat ∧ lead.toNat ≤ 0xef ∧ lead.toNat ≠ 0xed ∧ low = 0x80 ∧ high = 0xbf) ∨
    count = 3 ∧ (lead.toNat = 0xf0 ∧ low = 0x90 ∧ high = 0xbf ∨
      lead.toNat = 0xf4 ∧ low = 0x80 ∧ high = 0x8f ∨
      0xf1 ≤ lead.toNat ∧ lead.toNat ≤ 0xf3 ∧ low = 0x80 ∧ high = 0xbf)

theorem following_eq_some {lead low high : UInt8} {count : Nat} :
    following lead = some (count, low, high) ↔ Starts lead count low high := by
  unfold following Starts
  simp only [Bool.and_eq_true, decide_eq_true_eq, UInt8.lt_iff_toNat_lt, UInt8.le_iff_toNat_le,
    ← UInt8.toNat_inj, UInt8.reduceToNat]
  constructor
  · intro starts
    split_ifs at starts <;> cases starts <;> simp <;> omega
  · intro starts
    have widths : ∀ {value : Nat} {byte : UInt8}, byte.toNat = value →
        byte = UInt8.ofNat value := by
      rintro value byte rfl
      exact UInt8.ofNat_toNat.symm
    rcases starts with
      ⟨rfl, _, first, last⟩ | ⟨rfl, _, _, first, last⟩ |
      ⟨rfl, ⟨_, first, last⟩ | ⟨_, first, last⟩ | ⟨_, _, _, first, last⟩⟩ |
      ⟨rfl, ⟨_, first, last⟩ | ⟨_, first, last⟩ | ⟨_, _, first, last⟩⟩ <;>
    rw [widths first, widths last] <;> split_ifs <;> first | rfl | omega

variable {lead low high : UInt8} {tail rest : Bytes} {char : Char} {used : Nat}

theorem first_of_continues (starts : Starts lead tail.length low high)
    (continues : Continues low high tail) (rest : Bytes) :
    first lead (tail ++ rest) = (some (Char.ofNat (code lead tail)), tail.length) := by
  unfold first
  rw [following_eq_some.mpr starts]
  rcases tail with _ | ⟨one, _ | ⟨two, _ | ⟨three, _ | ⟨four, more⟩⟩⟩⟩
  · cases rest <;> simp [code]
  · simp [Continues] at continues
    simp [agreeing, continues, code]
  · simp [Continues] at continues
    simp [agreeing, continues, code]
  · simp [Continues] at continues
    simp [agreeing, continues, code]
  · simp [Starts] at starts

theorem continuation_iff {byte : UInt8} :
    isContinuation byte = true ↔ 0x80 ≤ byte.toNat ∧ byte.toNat ≤ 0xbf := by
  simp [isContinuation, UInt8.le_iff_toNat_le]

theorem eq_of_nat (byte : UInt8) {value : Nat} (same : value = byte.toNat) :
    UInt8.ofNat value = byte := by
  rw [same, UInt8.ofNat_toNat]

theorem value_of_char {value : Nat} (valid : value.isValidChar) :
    (Char.ofNat value).val.toNat = value := by
  rw [Char.ofNat, dif_pos valid]
  rfl

theorem encode_of_continues (starts : Starts lead tail.length low high)
    (continues : Continues low high tail) :
    utf8EncodeChar (Char.ofNat (code lead tail)) = lead :: tail := by
  unfold Starts at starts
  rcases tail with _ | ⟨one, _ | ⟨two, _ | ⟨three, _ | ⟨four, more⟩⟩⟩⟩
  · simp only [List.length_nil] at starts
    have value : code lead [] = lead.toNat := rfl
    have valid : lead.toNat.isValidChar := .inl (by omega)
    rw [utf8EncodeChar, value, value_of_char valid, if_pos (by omega), UInt8.ofNat_toNat]
  all_goals
    simp only [Continues, UInt8.le_iff_toNat_le, List.mem_cons, List.not_mem_nil, or_false,
      forall_eq_or_imp, forall_eq, continuation_iff] at continues
    simp only [List.length_cons, List.length_nil, ← UInt8.toNat_inj, UInt8.reduceToNat] at starts
  · have value : code lead [one] = lead.toNat % 0x20 * 0x40 + one.toNat % 0x40 := rfl
    generalize code lead [one] = point at value
    have valid : point.isValidChar := .inl (by omega)
    rw [utf8EncodeChar, value_of_char valid, if_neg (by omega), if_pos (by omega),
      eq_of_nat lead (by omega), eq_of_nat one (by omega)]
  · have value : code lead [one, two] =
        (lead.toNat % 0x10 * 0x40 + one.toNat % 0x40) * 0x40 + two.toNat % 0x40 := rfl
    generalize code lead [one, two] = point at value
    have valid : point.isValidChar := by
      unfold Nat.isValidChar
      omega
    rw [utf8EncodeChar, value_of_char valid, if_neg (by omega), if_neg (by omega),
      if_pos (by omega), eq_of_nat lead (by omega), eq_of_nat one (by omega),
      eq_of_nat two (by omega)]
  · have value : code lead [one, two, three] =
        ((lead.toNat % 0x08 * 0x40 + one.toNat % 0x40) * 0x40 + two.toNat % 0x40) * 0x40 +
          three.toNat % 0x40 := rfl
    generalize code lead [one, two, three] = point at value
    have valid : point.isValidChar := by
      unfold Nat.isValidChar
      omega
    rw [utf8EncodeChar, value_of_char valid, if_neg (by omega), if_neg (by omega),
      if_neg (by omega), eq_of_nat lead (by omega), eq_of_nat one (by omega),
      eq_of_nat two (by omega), eq_of_nat three (by omega)]
  · simp at starts

theorem starts_of_encode (char : Char) :
    ∃ lead tail low high, utf8EncodeChar char = lead :: tail ∧ Starts lead tail.length low high ∧
      Continues low high tail ∧ code lead tail = char.toNat := by
  have valid : char.val.toNat.isValidChar := char.valid
  unfold Nat.isValidChar at valid
  unfold utf8EncodeChar Starts Char.toNat
  generalize char.val.toNat = point at valid
  dsimp only
  split_ifs with one two three
  · refine ⟨_, _, 0, 0, rfl, ?_, trivial, ?_⟩
    · simp
      omega
    · simp [code, leadBits]
      omega
  · refine ⟨_, _, 0x80, 0xbf, rfl, ?_, ?_, ?_⟩
    · simp
      omega
    · simp [Continues, UInt8.le_iff_toNat_le]
      omega
    · simp [code, leadBits]
      omega
  · refine ⟨_, _, if point / 4096 = 0 then 0xa0 else 0x80, if point / 4096 = 13 then 0x9f else 0xbf,
      rfl, ?_, ?_, ?_⟩
    · split_ifs <;> simp <;> omega
    · split_ifs <;> simp [Continues, UInt8.le_iff_toNat_le, continuation_iff] <;> omega
    · simp [code, leadBits]
      omega
  · refine ⟨_, _, if point / 262144 = 0 then 0x90 else 0x80,
      if point / 262144 = 4 then 0x8f else 0xbf, rfl, ?_, ?_, ?_⟩
    · split_ifs <;> simp <;> omega
    · split_ifs <;> simp [Continues, UInt8.le_iff_toNat_le, continuation_iff] <;> omega
    · simp [code, leadBits]
      omega

theorem agreeing_in_front (low high : UInt8) (rest : Bytes) : agreeing low high rest <+: rest := by
  unfold agreeing
  split
  · exact List.nil_prefix
  · split
    · exact List.prefix_cons_inj _ |>.mpr
        ((List.takeWhile_prefix _).trans (List.take_prefix 2 _))
    · exact List.nil_prefix

theorem continues_agreeing (low high : UInt8) (rest : Bytes) (count : Nat) :
    Continues low high ((agreeing low high rest).take count) := by
  rcases rest with _ | ⟨next, later⟩
  · cases count <;> trivial
  · unfold agreeing
    dsimp only
    split_ifs with bounds
    · simp only [Bool.and_eq_true, decide_eq_true_eq] at bounds
      cases count with
      | zero => trivial
      | succ count =>
          refine ⟨bounds.1, bounds.2, fun byte member => ?_⟩
          exact List.mem_takeWhile_imp (List.mem_of_mem_take member)
    · cases count <;> trivial

theorem continues_of_first (read : first lead rest = (some char, used)) :
    ∃ tail after low high, rest = tail ++ after ∧ tail.length = used ∧
      Starts lead tail.length low high ∧ Continues low high tail := by
  unfold first at read
  cases starts : following lead with
  | none =>
      rw [starts] at read
      cases read
  | some bounds =>
      obtain ⟨count, low, high⟩ := bounds
      rw [starts] at read
      dsimp only at read
      by_cases enough : ((agreeing low high rest).take count).length = count
      · rw [if_pos enough] at read
        obtain ⟨-, rfl⟩ := Prod.mk.inj read
        obtain ⟨after, split⟩ := (List.take_prefix count _).trans (agreeing_in_front low high rest)
        rw [following_eq_some, ← enough] at starts
        exact ⟨_, after, low, high, split.symm, enough, starts,
          continues_agreeing low high rest count⟩
      · rw [if_neg enough] at read
        cases read

theorem code_of_ascii {byte : UInt8} (member : byte ∈ utf8EncodeChar char)
    (small : byte.toNat < 0x80) : char.toNat = byte.toNat := by
  obtain ⟨lead, tail, low, high, written, starts, continues, point⟩ := starts_of_encode char
  rw [written, List.mem_cons] at member
  rw [← point]
  unfold Starts at starts
  rcases tail with _ | ⟨next, later⟩
  · obtain rfl : byte = lead := by simpa using member
    rfl
  · simp only [Continues, UInt8.le_iff_toNat_le] at continues
    simp only [List.length_cons] at starts
    obtain ⟨above, below, rest⟩ := continues
    have large : 0x80 ≤ byte.toNat := by
      rw [List.mem_cons] at member
      rcases member with rfl | rfl | inside
      · omega
      · simp only [← UInt8.toNat_inj, UInt8.reduceToNat] at starts
        omega
      · exact (continuation_iff.mp (rest _ inside)).1
    omega

theorem sequences_encode (char : Char) (rest : Bytes) :
    sequences (utf8EncodeChar char ++ rest) = some char :: sequences rest := by
  obtain ⟨lead, tail, low, high, written, starts, continues, point⟩ := starts_of_encode char
  rw [written, List.cons_append, sequences, first_of_continues starts continues, point,
    Char.ofNat_toNat]
  dsimp only
  rw [List.drop_left]

theorem sequences_of_text (text : String) :
    sequences (Bytes.ofText text) = text.toList.map some := by
  rw [Bytes.of_text_eq]
  induction text.toList with
  | nil => rw [List.flatMap_nil, sequences, List.map_nil]
  | cons char rest ih => rw [List.flatMap_cons, sequences_encode, ih, List.map_cons]

theorem decode_of_text (text : String) : decodeLenient (Bytes.ofText text) = text := by
  rw [decodeLenient, sequences_of_text, List.map_map]
  simp [Function.comp_def]

theorem of_text_injective : Function.Injective Bytes.ofText := by
  intro text other same
  rw [← decode_of_text text, same, decode_of_text]

/-- A character that is shown is there as it is written. -/
theorem encoded_of_mem {bytes : Bytes} (member : some char ∈ sequences bytes) :
    utf8EncodeChar char <:+: bytes := by
  fun_induction sequences bytes with
  | case1 => cases member
  | case2 lead rest shown used read ih =>
      rw [List.mem_cons] at member
      rcases member with same | later
      · subst same
        obtain ⟨tail, after, low, high, rfl, rfl, starts, continues⟩ := continues_of_first read
        rw [first_of_continues starts continues] at read
        obtain ⟨same, -⟩ := Prod.mk.inj read
        rw [← Option.some.inj same, encode_of_continues starts continues]
        exact List.infix_append' [] (lead :: tail) after
      · have behind := (List.drop_suffix used rest).trans (List.suffix_cons lead rest)
        exact (ih later).trans behind.isInfix

/-- Where nothing is replaced, the bytes are those of the text that is shown. -/
theorem of_text_decode {bytes : Bytes} (whole : none ∉ sequences bytes) :
    Bytes.ofText (decodeLenient bytes) = bytes := by
  rw [Bytes.of_text_eq, decodeLenient, String.toList_ofList]
  fun_induction sequences bytes with
  | case1 => rfl
  | case2 lead rest shown used read ih =>
      cases shown with
      | none => simp at whole
      | some char =>
          obtain ⟨tail, after, low, high, rfl, rfl, starts, continues⟩ := continues_of_first read
          rw [first_of_continues starts continues] at read
          obtain ⟨same, -⟩ := Prod.mk.inj read
          simp only [List.mem_cons, reduceCtorEq, false_or] at whole
          rw [List.map_cons, List.flatMap_cons, ih whole, Option.getD_some, ← Option.some.inj same,
            encode_of_continues starts continues, List.drop_left, List.cons_append]

end ArchiveBrowser.Text.Utf8
