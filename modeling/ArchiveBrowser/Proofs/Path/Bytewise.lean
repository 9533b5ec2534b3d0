import ArchiveBrowser.Path.Bytewise
import ArchiveBrowser.Proofs.Path.Components
import ArchiveBrowser.Proofs.Text.Utf8

/-!
# Paths of bytes and paths of letters

The bytes of a text are cut at slashes where the text itself is, since no other character has
the byte of a slash. From a directory to an entry of it there is just the name of the entry to
go, whatever bytes the name has.
-/

set_option autoImplicit false

namespace ArchiveBrowser

namespace Bytes

open String (utf8EncodeChar)

theorem char_of_byte (byte : UInt8) : (Char.ofNat byte.toNat).toNat = byte.toNat := by
  apply Text.Utf8.value_of_char
  have bound := byte.toNat_lt
  exact .inl (by omega)

theorem of_letters_letters (bytes : Bytes) : ofLetters bytes.letters = bytes := by
  rw [ofLetters, letters, String.toList_ofList, List.map_map]
  apply List.map_id''
  intro byte
  rw [Function.comp_apply, char_of_byte, UInt8.ofNat_toNat]

theorem letters_of_letters {text : String} (small : ∀ letter ∈ text.toList, letter.toNat < 256) :
    (ofLetters text).letters = text := by
  rw [letters, ofLetters, List.map_map]
  have same : ∀ letter ∈ text.toList,
      ((fun byte : UInt8 => Char.ofNat byte.toNat) ∘
        fun letter => UInt8.ofNat letter.toNat) letter = letter := by
    intro letter member
    rw [Function.comp_apply, UInt8.toNat_ofNat', Nat.mod_eq_of_lt (small letter member),
      Char.ofNat_toNat]
  rw [List.map_congr_left same, List.map_id', String.ofList_toList]

theorem letter_lt {bytes : Bytes} {letter : Char} (member : letter ∈ bytes.letters.toList) :
    letter.toNat < 256 := by
  rw [letters, String.toList_ofList] at member
  obtain ⟨byte, -, rfl⟩ := List.mem_map.mp member
  rw [char_of_byte]
  exact byte.toNat_lt

theorem mem_letters {bytes : Bytes} {letter : Char} (small : letter.toNat < 256) :
    letter ∈ bytes.letters.toList ↔ UInt8.ofNat letter.toNat ∈ bytes := by
  rw [letters, String.toList_ofList, List.mem_map]
  constructor
  · rintro ⟨byte, member, rfl⟩
    rwa [char_of_byte, UInt8.ofNat_toNat]
  · intro member
    refine ⟨_, member, ?_⟩
    rw [UInt8.toNat_ofNat', Nat.mod_eq_of_lt small, Char.ofNat_toNat]

/-- The letters for the bytes of a character. -/
def encodedLetters (char : Char) : List Char :=
  (utf8EncodeChar char).map fun byte => Char.ofNat byte.toNat

theorem letters_of_text (text : String) :
    (ofText text).letters.toList = text.toList.flatMap encodedLetters := by
  rw [letters, String.toList_ofList, of_text_eq, List.map_flatMap]
  rfl

theorem encoded_letters_separator : encodedLetters Path.separator = [Path.separator] := by
  decide

theorem encoded_letters_ne_nil (char : Char) : encodedLetters char ≠ [] := by
  obtain ⟨lead, tail, low, high, written, -⟩ := Text.Utf8.starts_of_encode char
  rw [encodedLetters, written]
  exact List.cons_ne_nil _ _

theorem separator_mem_encoded {char : Char} (member : Path.separator ∈ encodedLetters char) :
    char = Path.separator := by
  obtain ⟨byte, inside, same⟩ := List.mem_map.mp member
  have number : byte.toNat = Path.separator.toNat := by rw [← same, char_of_byte]
  have small : Path.separator.toNat < 0x80 := by decide
  rw [← Char.ofNat_toNat char, Text.Utf8.code_of_ascii inside (number ▸ small), number,
    Char.ofNat_toNat]

theorem flat_map_intercalate {α β : Type} (f : α → List β) (between : List α)
    (parts : List (List α)) :
    (between.intercalate parts).flatMap f =
      (between.flatMap f).intercalate (parts.map fun part => part.flatMap f) := by
  induction parts with
  | nil => rfl
  | cons first rest ih =>
      cases rest with
      | nil => simp
      | cons second more =>
          rw [List.map_cons, List.map_cons, List.intercalate_cons_cons, List.intercalate_cons_cons,
            List.flatMap_append, List.flatMap_append, ih, List.map_cons]

end Bytes

namespace Path.Bytewise

theorem is_absolute_of_text (path : String) :
    isAbsolute (Bytes.ofText path) = Path.isAbsolute path := by
  unfold isAbsolute Path.isAbsolute
  rw [Bytes.letters_of_text]
  cases path.toList with
  | nil => rfl
  | cons char rest =>
      by_cases slash : char = Path.separator
      · subst slash
        rw [List.flatMap_cons, Bytes.encoded_letters_separator]
        rfl
      · have started : ((char :: rest).flatMap Bytes.encodedLetters).head? ≠
            some Path.separator := by
          intro first
          rw [List.flatMap_cons, List.head?_append_of_ne_nil _ (Bytes.encoded_letters_ne_nil char)]
            at first
          exact slash (Bytes.separator_mem_encoded (List.mem_of_mem_head? first))
        have other : (char :: rest).head? ≠ some Path.separator := by simpa using slash
        rw [beq_eq_false_iff_ne.mpr started, beq_eq_false_iff_ne.mpr other]

theorem split_encoded (path : String) :
    (Bytes.ofText path).letters.toList.splitOn Path.separator =
      (path.toList.splitOn Path.separator).map fun part => part.flatMap Bytes.encodedLetters := by
  have free : ∀ part ∈ (path.toList.splitOn Path.separator).map
      fun part => part.flatMap Bytes.encodedLetters, Path.separator ∉ part := by
    intro part member inside
    obtain ⟨own, listed, rfl⟩ := List.mem_map.mp member
    obtain ⟨char, there, slash⟩ := List.mem_flatMap.mp inside
    rw [Bytes.separator_mem_encoded slash] at there
    apply Path.piece_free (List.mem_map_of_mem listed)
    rwa [String.toList_ofList]
  have together := Bytes.flat_map_intercalate Bytes.encodedLetters [Path.separator]
    (path.toList.splitOn Path.separator)
  rw [List.intercalate_splitOn, List.flatMap_singleton, Bytes.encoded_letters_separator] at together
  rw [Bytes.letters_of_text, together, List.splitOn_intercalate Path.separator free (by simp)]

/-- The bytes of a text are cut where the text is cut. -/
theorem pieces_of_text (path : String) :
    pieces (Bytes.ofText path) = (Path.pieces path).map Bytes.ofText := by
  rw [pieces, Path.pieces, split_encoded, Path.pieces, List.map_map, List.map_map, List.map_map]
  apply List.map_congr_left
  intro part member
  have letters : String.ofList (part.flatMap Bytes.encodedLetters) =
      (Bytes.ofText (String.ofList part)).letters := by
    rw [← String.toList_inj, Bytes.letters_of_text, String.toList_ofList, String.toList_ofList]
  rw [Function.comp_apply, Function.comp_apply, letters, Bytes.of_letters_letters]
  rfl

theorem push_small {path next : Bytes} {letter : Char}
    (member : letter ∈ (Path.push path.letters next.letters).toList) : letter.toNat < 256 := by
  unfold Path.push at member
  split_ifs at member
  · exact Bytes.letter_lt member
  · rw [String.toList_append, List.mem_append] at member
    exact member.elim Bytes.letter_lt Bytes.letter_lt
  · rw [String.toList_append, String.toList_append, List.mem_append, List.mem_append] at member
    rcases member with (member | member) | member
    · exact Bytes.letter_lt member
    · have slash : letter = '/' := by simpa using member
      rw [slash]
      decide
    · exact Bytes.letter_lt member

/-- A piece of a path that stands for what a directory holds under it. -/
structure IsPlain (piece : Bytes) : Prop where
  nonempty : piece ≠ []
  not_current : piece ≠ current
  not_parent : piece ≠ parent

theorem is_plain_of_text {piece : String} (plain : Path.IsPlain piece) :
    IsPlain (Bytes.ofText piece) where
  nonempty := Text.Utf8.of_text_injective.ne plain.nonempty
  not_current := Text.Utf8.of_text_injective.ne plain.not_current
  not_parent := Text.Utf8.of_text_injective.ne plain.not_parent

theorem IsPlain.no_stay {piece : Bytes} (plain : IsPlain piece) :
    ¬(piece.isEmpty || decide (piece = current)) = true := by
  simp [plain.nonempty, plain.not_current]

structure IsName (name : Bytes) : Prop extends IsPlain name where
  free : 0x2f ∉ name

theorem IsName.letters {name : Bytes} (isName : IsName name) : Path.IsName name.letters := by
  have differs : ∀ {text : String}, name ≠ Bytes.ofLetters text → name.letters ≠ text := by
    rintro text other rfl
    exact other (Bytes.of_letters_letters name).symm
  refine ⟨⟨differs isName.nonempty, differs isName.not_current, differs isName.not_parent⟩, ?_⟩
  rw [Bytes.mem_letters (by decide)]
  exact isName.free

/-- From a directory to what it holds there is just the name to go. -/
theorem relative_push (directory : Bytes) {name : Bytes} (isName : IsName name) :
    relative (push directory name) directory = name := by
  have written : (push directory name).letters =
      Path.push directory.letters name.letters :=
    Bytes.letters_of_letters fun _ => push_small
  rw [relative, written, Path.relative_push _ isName.letters, Bytes.of_letters_letters]

end Path.Bytewise

end ArchiveBrowser
