import ArchiveBrowser.FileSystem.Name
import ArchiveBrowser.Proofs.Path.Bytewise

/-!
# The names of entries

However a name is shown, it is a name: nothing that is put in the place of malformed bytes is a
slash or a dot. Names whose bytes are those of a text are shown as they are, and no two of them
are shown alike.
-/

set_option autoImplicit false

namespace ArchiveBrowser

namespace Text.Utf8

theorem encode_of_ascii {char : Char} (small : char.toNat < 0x80) :
    String.utf8EncodeChar char = [UInt8.ofNat char.toNat] := by
  have bound : char.val.toNat ≤ 0x7f := by
    change char.val.toNat < 0x80 at small
    omega
  rw [String.utf8EncodeChar, if_pos bound]
  rfl

/-- An ASCII letter is shown only where its byte is. -/
theorem mem_of_ascii_shown {bytes : Bytes} {char : Char} (small : char.toNat < 0x80)
    (member : char ∈ (decodeLenient bytes).toList) : UInt8.ofNat char.toNat ∈ bytes := by
  rw [decodeLenient, String.toList_ofList] at member
  obtain ⟨shown, read, same⟩ := List.mem_map.mp member
  cases shown with
  | none =>
      rw [← same] at small
      exact absurd small (by decide)
  | some own =>
      obtain rfl : own = char := same
      have inside := encoded_of_mem read
      rw [encode_of_ascii small] at inside
      exact inside.mem (List.mem_singleton_self _)

theorem of_text_of_shown {bytes : Bytes} {text : String} (shown : decodeLenient bytes = text)
    (whole : '\ufffd' ∉ text.toList) : Bytes.ofText text = bytes := by
  rw [← shown]
  apply of_text_decode
  intro replaced
  apply whole
  rw [← shown, decodeLenient, String.toList_ofList]
  exact List.mem_map.mpr ⟨none, replaced, rfl⟩

end Text.Utf8

namespace FileName

theorem bytes_injective : Function.Injective bytes := by
  intro first second same
  cases first
  cases second
  cases same
  rfl

theorem of_bytes_bytes (name : FileName) : ofBytes? name.bytes = some name := by
  rw [ofBytes?, dif_pos name.legal]

theorem bytes_of_of_bytes {bytes : Bytes} {name : FileName}
    (read : ofBytes? bytes = some name) : name.bytes = bytes := by
  unfold ofBytes? at read
  split at read
  · cases read
    rfl
  · cases read

/-- What makes a string of bytes the name of an entry. -/
structure Legal (bytes : Bytes) : Prop extends Path.Bytewise.IsName bytes where
  clean : 0 ∉ bytes
  short : bytes.length ≤ limit

theorem is_legal_iff {bytes : Bytes} : isLegal bytes = true ↔ Legal bytes := by
  unfold isLegal
  rw [Bool.and_eq_true, Bool.and_eq_true, Bool.and_eq_true, Bool.and_eq_true, Bool.and_eq_true]
  constructor
  · rintro ⟨⟨⟨⟨⟨nonempty, notCurrent⟩, notParent⟩, free⟩, clean⟩, short⟩
    exact ⟨⟨⟨by simpa using nonempty, by simpa using notCurrent, by simpa using notParent⟩,
      by simpa using free⟩, by simpa using clean, by simpa using short⟩
  · rintro ⟨⟨⟨nonempty, notCurrent, notParent⟩, free⟩, clean, short⟩
    exact ⟨⟨⟨⟨⟨by simpa using nonempty, by simpa using notCurrent⟩, by simpa using notParent⟩,
      by simpa using free⟩, by simpa using clean⟩, by simpa using short⟩

variable (name : FileName)

theorem is_legal : Legal name.bytes :=
  is_legal_iff.mp name.legal

theorem is_name : Path.IsName name.text := by
  have differs : ∀ {text : String}, '\ufffd' ∉ text.toList → Bytes.ofText text ≠ name.bytes →
      name.text ≠ text :=
    fun whole other shown => other (Text.Utf8.of_text_of_shown shown whole)
  refine ⟨⟨differs (by decide) ?_, differs (by decide) ?_, differs (by decide) ?_⟩, ?_⟩
  · exact name.is_legal.nonempty.symm
  · exact name.is_legal.not_current.symm
  · exact name.is_legal.not_parent.symm
  · exact fun slash => name.is_legal.free (Text.Utf8.mem_of_ascii_shown (by decide) slash)

theorem clean : '\x00' ∉ name.text.toList :=
  fun member => name.is_legal.clean (Text.Utf8.mem_of_ascii_shown (by decide) member)

/-! ## Names that are texts -/

/-- The bytes of the name are those of a text. -/
def IsText : Prop :=
  Bytes.ofText name.text = name.bytes

variable {name}

theorem is_text_iff : name.IsText ↔ ∃ text, name.bytes = Bytes.ofText text := by
  constructor
  · intro isText
    exact ⟨name.text, isText.symm⟩
  · rintro ⟨text, same⟩
    rw [IsText, FileName.text, same, Text.Utf8.decode_of_text]

theorem text_of_bytes {text : String} (same : name.bytes = Bytes.ofText text) :
    name.text = text := by
  rw [FileName.text, same, Text.Utf8.decode_of_text]

theorem eq_of_texts {other : FileName} (isText : name.IsText) (alsoText : other.IsText)
    (same : name.text = other.text) : name = other := by
  apply bytes_injective
  rw [← isText, same, alsoText]

theorem IsText.of_text (isText : name.IsText) : ofText? name.text = some name := by
  rw [ofText?, isText, of_bytes_bytes]

def AreTexts (names : Location) : Prop :=
  ∀ name ∈ names, name.IsText

theorem bytes_of_texts {names : Location} (texts : AreTexts names) :
    (names.map text).map Bytes.ofText = names.map bytes := by
  rw [List.map_map]
  exact List.map_congr_left texts

theorem texts_injective {names others : Location} (texts : AreTexts names)
    (alsoTexts : AreTexts others) (same : names.map text = others.map text) : names = others := by
  apply bytes_injective.list_map
  rw [← bytes_of_texts texts, same, bytes_of_texts alsoTexts]

/-- What reads as the names of a path are names that are texts. -/
theorem texts_of_bytes {pieces : List String} {names : Location}
    (same : pieces.map Bytes.ofText = names.map bytes) :
    pieces = names.map text ∧ AreTexts names := by
  have shown : (pieces.map Bytes.ofText).map Text.Utf8.decodeLenient = pieces := by
    rw [List.map_map]
    exact List.map_id'' Text.Utf8.decode_of_text pieces
  refine ⟨?_, ?_⟩
  · rw [← shown, same, List.map_map]
    rfl
  · intro name member
    have written : name.bytes ∈ pieces.map Bytes.ofText := same ▸ List.mem_map_of_mem member
    obtain ⟨piece, -, read⟩ := List.mem_map.mp written
    exact is_text_iff.mpr ⟨piece, read.symm⟩

end FileName

end ArchiveBrowser
