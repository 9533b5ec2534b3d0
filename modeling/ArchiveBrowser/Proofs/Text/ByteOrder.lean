import ArchiveBrowser.Bytes
import ArchiveBrowser.Proofs.Text.Sorted

/-!
# The order of texts and the order of their bytes

UTF-8 keeps the order of code points: a greater code point has a greater first byte if it takes
more bytes, and else the six-bit digits in its bytes are compared from the front. Texts are
therefore ordered alike as lists of characters and as lists of bytes, and sorting them is
sorting their bytes.
-/

set_option autoImplicit false

namespace ArchiveBrowser.Bytes

open String

/-- A first byte, and after it so many bytes with six bits of the number each. -/
def digits (lead : Nat → UInt8) : (count : Nat) → (code : Nat) → Bytes
  | 0, code => [lead code]
  | count + 1, code => digits lead count (code / 64) ++ [UInt8.ofNat (code % 64 + 0x80)]

theorem continuation_lt {code other : Nat} (lt : code % 64 < other % 64) :
    UInt8.ofNat (code % 64 + 0x80) < UInt8.ofNat (other % 64 + 0x80) := by
  rw [UInt8.lt_iff_toNat_lt, UInt8.toNat_ofNat', UInt8.toNat_ofNat']
  omega

theorem digits_lt {lead : Nat → UInt8} {bound : Nat}
    (rises : ∀ code other, code < other → other < bound → lead code < lead other)
    (count : Nat) {code other : Nat} (lt : code < other) (inside : other < bound * 64 ^ count)
    (first second : Bytes) :
    digits lead count code ++ first < digits lead count other ++ second := by
  induction count generalizing code other first second with
  | zero =>
      rw [digits, digits, List.singleton_append, List.singleton_append, List.cons_lt_cons_iff]
      exact .inl (rises code other lt (by simpa using inside))
  | succ count ih =>
      rw [digits, digits, List.append_assoc, List.append_assoc]
      by_cases same : code / 64 = other / 64
      · rw [same, List.singleton_append, List.singleton_append]
        apply List.append_left_lt
        rw [List.cons_lt_cons_iff]
        exact .inl (continuation_lt (by omega))
      · apply ih
        · omega
        · rw [Nat.div_lt_iff_lt_mul (by decide), Nat.mul_assoc, ← Nat.pow_succ]
          exact inside

/-- How a code point is laid out: how many bytes come after the first, how many first bytes
there are of this kind, and the least of them. -/
structure Layout where
  count : Nat
  leads : Nat
  marker : Nat

def Layout.of (code : Nat) : Layout :=
  if code ≤ 0x7f then { count := 0, leads := 0x80, marker := 0 }
  else if code ≤ 0x7ff then { count := 1, leads := 0x20, marker := 0xc0 }
  else if code ≤ 0xffff then { count := 2, leads := 0x10, marker := 0xe0 }
  else { count := 3, leads := 0x08, marker := 0xf0 }

namespace Layout

def lead (layout : Layout) (code : Nat) : UInt8 :=
  UInt8.ofNat (code % layout.leads + layout.marker)

theorem encode_eq (char : Char) :
    utf8EncodeChar char = digits (of char.toNat).lead (of char.toNat).count char.toNat := by
  change _ = digits (of char.val.toNat).lead (of char.val.toNat).count char.val.toNat
  unfold utf8EncodeChar of
  dsimp only
  split_ifs with one two three
  · have small : char.val.toNat % 0x80 = char.val.toNat := Nat.mod_eq_of_lt (by omega)
    simp only [digits, lead, small, Nat.add_zero]
  · rfl
  · simp only [digits, lead, Nat.div_div_eq_div_mul]
    rfl
  · simp only [digits, lead, Nat.div_div_eq_div_mul]
    rfl

theorem of_fits (code : Nat) : (of code).leads + (of code).marker ≤ 256 := by
  unfold of
  split_ifs <;> decide

theorem lt_of_layout {code : Nat} (valid : code < 0x110000) :
    code < (of code).leads * 64 ^ (of code).count := by
  unfold of
  split_ifs <;> dsimp only <;> omega

/-- A greater code point has the same layout, or one whose first bytes are all greater. -/
theorem of_mono {code other : Nat} (le : code ≤ other) :
    of code = of other ∨ (of code).leads + (of code).marker ≤ (of other).marker := by
  unfold of
  split_ifs <;> first | exact .inl rfl | (right; dsimp only; omega)

theorem lead_lt {layout : Layout} (fits : layout.leads + layout.marker ≤ 256) (code other : Nat)
    (lt : code < other) (inside : other < layout.leads) :
    layout.lead code < layout.lead other := by
  rw [lead, lead, UInt8.lt_iff_toNat_lt, UInt8.toNat_ofNat', UInt8.toNat_ofNat',
    Nat.mod_eq_of_lt inside, Nat.mod_eq_of_lt (Nat.lt_trans lt inside)]
  omega

theorem lead_lt_of_markers {first second : Layout} (code other : Nat)
    (positive : 0 < first.leads) (also : 0 < second.leads)
    (fits : second.leads + second.marker ≤ 256)
    (apart : first.leads + first.marker ≤ second.marker) :
    first.lead code < second.lead other := by
  have small := Nat.mod_lt code positive
  have smallAlso := Nat.mod_lt other also
  rw [lead, lead, UInt8.lt_iff_toNat_lt, UInt8.toNat_ofNat', UInt8.toNat_ofNat']
  omega

theorem leads_positive (code : Nat) : 0 < (of code).leads := by
  unfold of
  split_ifs <;> decide

end Layout

theorem digits_eq_cons (lead : Nat → UInt8) (count code : Nat) :
    ∃ rest, digits lead count code = lead (code / 64 ^ count) :: rest := by
  induction count generalizing code with
  | zero => exact ⟨[], by rw [digits, Nat.pow_zero, Nat.div_one]⟩
  | succ count ih =>
      obtain ⟨rest, split⟩ := ih (code / 64)
      refine ⟨rest ++ [UInt8.ofNat (code % 64 + 0x80)], ?_⟩
      rw [digits, split, Nat.div_div_eq_div_mul, ← Nat.pow_succ', List.cons_append]

theorem encode_lt {char other : Char} (lt : char < other) (first second : Bytes) :
    utf8EncodeChar char ++ first < utf8EncodeChar other ++ second := by
  have codes : char.toNat < other.toNat := lt
  have valid : other.toNat < 0x110000 := by
    rcases other.valid with low | ⟨-, high⟩
    · exact Nat.lt_trans low (by decide)
    · exact high
  rw [Layout.encode_eq, Layout.encode_eq]
  rcases Layout.of_mono (Nat.le_of_lt codes) with same | apart
  · rw [same]
    exact digits_lt (Layout.lead_lt (Layout.of_fits _)) _ codes (Layout.lt_of_layout valid) _ _
  · obtain ⟨rest, split⟩ := digits_eq_cons (Layout.of char.toNat).lead
      (Layout.of char.toNat).count char.toNat
    obtain ⟨otherRest, otherSplit⟩ := digits_eq_cons (Layout.of other.toNat).lead
      (Layout.of other.toNat).count other.toNat
    rw [split, otherSplit, List.cons_append, List.cons_append, List.cons_lt_cons_iff]
    exact .inl (Layout.lead_lt_of_markers _ _ (Layout.leads_positive _) (Layout.leads_positive _)
      (Layout.of_fits _) apart)

theorem of_text_eq (text : String) : ofText text = text.toList.flatMap utf8EncodeChar := by
  have made : text.toByteArray = text.toList.utf8Encode := by
    rw [← String.toByteArray_ofList, String.ofList_toList]
  rw [ofText, made, List.utf8Encode, List.toList_data_toByteArray]

theorem of_text_append (text more : String) : ofText (text ++ more) = ofText text ++ ofText more := by
  rw [of_text_eq, of_text_eq, of_text_eq, String.toList_append, List.flatMap_append]

theorem flat_map_encode_lt {chars others : List Char} (lt : chars < others) :
    chars.flatMap utf8EncodeChar < others.flatMap utf8EncodeChar := by
  induction chars generalizing others with
  | nil =>
      cases others with
      | nil => exact absurd lt (List.lt_irrefl [])
      | cons other others =>
          obtain ⟨lead, rest, bytes⟩ :=
            List.exists_cons_of_ne_nil (String.utf8EncodeChar_ne_nil (c := other))
          rw [List.flatMap_nil, List.flatMap_cons, bytes]
          exact List.nil_lt_cons lead _
  | cons char chars ih =>
      cases others with
      | nil => cases lt
      | cons other others =>
          rw [List.flatMap_cons, List.flatMap_cons]
          rcases List.cons_lt_cons_iff.mp lt with less | ⟨rfl, later⟩
          · exact encode_lt less _ _
          · exact List.append_left_lt (ih later)

/-- A text that comes before another one does so by its bytes. -/
theorem of_text_lt {text other : String} (lt : text < other) : ofText text < ofText other := by
  rw [of_text_eq, of_text_eq]
  exact flat_map_encode_lt lt

/-- Sorting texts sorts them by their bytes. -/
theorem sorted_by_bytes {texts : List String} (once : texts.Nodup) :
    (texts.mergeSort fun first second => first ≤ second).Pairwise fun first second =>
      ofText first < ofText second := by
  have distinct : (texts.mergeSort fun first second => first ≤ second).Nodup :=
    (List.mergeSort_perm texts _).nodup_iff.mpr once
  apply ((Text.pairwise_sorted texts).and distinct).imp
  intro first second before
  apply of_text_lt
  exact lt_of_le_of_ne before.1 before.2

end ArchiveBrowser.Bytes
