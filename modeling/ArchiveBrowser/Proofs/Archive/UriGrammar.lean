import ArchiveBrowser.Archive.Opening
import Mathlib

/-!
# The grammar of archive URIs

`IsWritten` is the grammar: a scheme, `://`, and a path of which nothing is asked but that there is
some. No scheme holds a colon, so the first `://` of a text is the only place where it can be cut,
however many more there are in the path. Reading accepts just what the grammar admits, and takes
back what it is shown as.
-/

set_option autoImplicit false

namespace ArchiveBrowser.Uri

def IsLetter (c : Char) : Prop :=
  ('a' ≤ c ∧ c ≤ 'z') ∨ ('A' ≤ c ∧ c ≤ 'Z')

def IsDigit (c : Char) : Prop :=
  '0' ≤ c ∧ c ≤ '9'

def GoesOnScheme (c : Char) : Prop :=
  IsLetter c ∨ IsDigit c ∨ c ∈ ['+', '-', '.']

/-- A letter, and then letters, digits, `+`, `-` and `.`, all of them of ASCII. -/
def IsScheme (scheme : String) : Prop :=
  ∃ first rest, scheme.toList = first :: rest ∧ IsLetter first ∧ ∀ c ∈ rest, GoesOnScheme c

/-- The text is made of a scheme, `://` and a path. -/
structure IsWritten (text scheme path : String) : Prop where
  scheme_valid : IsScheme scheme
  path_nonempty : path ≠ ""
  text_eq : text = scheme ++ "://" ++ path

/-! ## Characters of a scheme -/

theorem is_alpha_iff {c : Char} : c.isAlpha = true ↔ IsLetter c := by
  simp only [Char.isAlpha, Char.isUpper, Char.isLower, IsLetter, Char.le_def]
  grind

theorem is_digit_iff {c : Char} : c.isDigit = true ↔ IsDigit c := by
  simp only [Char.isDigit, IsDigit, Char.le_def]
  grind

theorem is_scheme_character_iff {c : Char} : isSchemeCharacter c = true ↔ GoesOnScheme c := by
  simp only [isSchemeCharacter, Char.isAlphanum, Bool.or_eq_true, is_alpha_iff, is_digit_iff,
    beq_iff_eq, GoesOnScheme, List.mem_cons, List.not_mem_nil, or_false, or_assoc]

theorem GoesOnScheme.ne_colon {c : Char} (goesOn : GoesOnScheme c) : c ≠ ':' := by
  intro colon
  have not : isSchemeCharacter ':' = false := by decide
  rw [← is_scheme_character_iff, colon, not] at goesOn
  cases goesOn

theorem GoesOnScheme.lower {c : Char} (goesOn : GoesOnScheme c) : GoesOnScheme c.toLower := by
  by_cases upper : c.isUpper = true
  · have letter : c.toLower.isAlpha = true := by
      rw [Char.isAlpha_toLower_eq_isAlpha, Char.isAlpha, upper, Bool.true_or]
    exact .inl (is_alpha_iff.mp letter)
  · rwa [Char.toLower_eq_of_not_isUpper upper]

theorem to_list_to_lower (text : String) : text.toLower.toList = text.toList.map Char.toLower :=
  String.toList_map

theorem to_lower_to_lower (text : String) : text.toLower.toLower = text.toLower := by
  rw [← String.toList_inj, to_list_to_lower, to_list_to_lower, List.map_map]
  apply List.map_congr_left
  intro c _
  exact Char.toLower_toLower_eq_toLower c

namespace IsScheme

variable {scheme : String}

theorem no_colon (valid : IsScheme scheme) : ':' ∉ scheme.toList := by
  obtain ⟨first, rest, letters, letter, goesOn⟩ := valid
  rw [letters]
  intro member
  cases member with
  | head => exact GoesOnScheme.ne_colon (.inl letter) rfl
  | tail _ behind => exact (goesOn ':' behind).ne_colon rfl

theorem lower (valid : IsScheme scheme) : IsScheme scheme.toLower := by
  obtain ⟨first, rest, letters, letter, goesOn⟩ := valid
  refine ⟨first.toLower, rest.map Char.toLower, ?_, ?_, ?_⟩
  · rw [to_list_to_lower, letters, List.map_cons]
  · rwa [← is_alpha_iff, Char.isAlpha_toLower_eq_isAlpha, is_alpha_iff]
  · intro c member
    obtain ⟨upper, inside, rfl⟩ := List.mem_map.mp member
    exact (goesOn upper inside).lower

end IsScheme

theorem scheme_flaw_eq_none {scheme : String} :
    schemeFlaw? scheme.toList = none ↔ IsScheme scheme := by
  unfold IsScheme
  cases letters : scheme.toList with
  | nil => simp [schemeFlaw?]
  | cons first rest =>
      simp only [schemeFlaw?, List.cons.injEq]
      grind [is_alpha_iff, is_scheme_character_iff]

/-! ## The cut -/

theorem split_append {scheme : List Char} (free : ':' ∉ scheme) (path : List Char) :
    split? (scheme ++ ':' :: '/' :: '/' :: path) = some (scheme, path) := by
  induction scheme with
  | nil => rfl
  | cons first rest ih =>
      have different : first ≠ ':' := fun same => free (by simp [same])
      have later := ih fun member => free (List.mem_cons_of_mem _ member)
      rw [List.cons_append, split?, later]
      · rfl
      · intro _ colon
        exact absurd colon different

theorem eq_append_of_split {text scheme path : List Char}
    (cut : split? text = some (scheme, path)) : text = scheme ++ ':' :: '/' :: '/' :: path := by
  fun_induction split? text generalizing scheme with
  | case1 => cases cut
  | case2 rest =>
      cases cut
      rfl
  | case3 first rest _ ih =>
      obtain ⟨⟨before, behind⟩, found, same⟩ := Option.map_eq_some_iff.mp cut
      cases same
      rw [ih found, List.cons_append]

variable {text scheme path : String}

theorem to_list_of_parts :
    (scheme ++ "://" ++ path).toList = scheme.toList ++ ':' :: '/' :: '/' :: path.toList := by
  rw [String.toList_append, String.toList_append, List.append_assoc]
  rfl

theorem text_of_split (cut : split? text.toList = some (scheme.toList, path.toList)) :
    text = scheme ++ "://" ++ path := by
  rw [← String.toList_inj, to_list_of_parts]
  exact eq_append_of_split cut

theorem IsWritten.split (written : IsWritten text scheme path) :
    split? text.toList = some (scheme.toList, path.toList) := by
  rw [written.text_eq, to_list_of_parts]
  exact split_append written.scheme_valid.no_colon path.toList

theorem IsWritten.unique {other rest : String} (written : IsWritten text scheme path)
    (also : IsWritten text other rest) : scheme = other ∧ path = rest := by
  have same := written.split.symm.trans also.split
  rw [Option.some.injEq, Prod.mk.injEq, String.toList_inj, String.toList_inj] at same
  exact same

theorem read_eq_ok {uri : Uri} :
    read text = .ok uri ↔
      ∃ scheme path, IsWritten text scheme path ∧ uri = ⟨scheme.toLower, path⟩ := by
  constructor
  · intro accepted
    unfold read at accepted
    split at accepted
    · cases accepted
    · rename_i letters rest cut
      rw [← String.toList_ofList (l := letters), ← String.toList_ofList (l := rest)] at cut
      split at accepted
      · cases accepted
      · rename_i sound
        rw [← String.toList_ofList (l := letters), scheme_flaw_eq_none] at sound
        split at accepted
        · cases accepted
        · rename_i full
          cases accepted
          exact ⟨_, _, ⟨sound, by simpa using full, text_of_split cut⟩, rfl⟩
  · intro grammatical
    obtain ⟨scheme, path, written, rfl⟩ := grammatical
    have sound := scheme_flaw_eq_none.mpr written.scheme_valid
    have full := written.path_nonempty
    unfold read
    rw [written.split]
    simp [sound, full]

theorem parse_eq_ok {uri : Uri} :
    parse text = .ok uri ↔
      ∃ scheme path, IsWritten text scheme path ∧ uri = ⟨scheme.toLower, path⟩ := by
  rw [← read_eq_ok, parse]
  cases read text <;> simp [Except.mapError]

theorem parse_cases (text : String) :
    (∃ uri, parse text = .ok uri) ∨
      ∃ flaw : Flaw, parse text = .error (.invalidUri text flaw.message) := by
  unfold parse
  cases read text with
  | ok uri => exact .inl ⟨uri, rfl⟩
  | error flaw => exact .inr ⟨flaw, rfl⟩

theorem IsWritten.lower (written : IsWritten text scheme path) :
    IsWritten (scheme.toLower ++ "://" ++ path) scheme.toLower path where
  scheme_valid := written.scheme_valid.lower
  path_nonempty := written.path_nonempty
  text_eq := rfl

/-- A text is accepted just if the grammar admits it, which it does in one way only; the scheme
that comes out is in lower case and the path is as it was written. Any other text comes back in
the error. An accepted URI is shown with a scheme that differs from the written one at most in the
case of letters, is read back as it is, and opens whatever the text opens. -/
theorem parse_accepts_grammar (text : String) :
    (∀ uri, parse text = .ok uri ↔
        ∃ scheme path, IsWritten text scheme path ∧ uri = ⟨scheme.toLower, path⟩) ∧
      ((∃ flaw : Flaw, parse text = .error (.invalidUri text flaw.message)) ↔
        ¬∃ scheme path, IsWritten text scheme path) ∧
      (∀ scheme path other rest, IsWritten text scheme path → IsWritten text other rest →
        scheme = other ∧ path = rest) ∧
      ∀ uri, parse text = .ok uri →
        parse uri.render = .ok uri ∧
          (∃ scheme path, IsWritten text scheme path ∧
            uri.render = scheme.toLower ++ "://" ++ path) ∧
          ∀ system, Archive.ofUri system uri.render = Archive.ofUri system text := by
  refine ⟨fun uri => parse_eq_ok, ?_, fun _ _ _ _ => IsWritten.unique, ?_⟩
  · constructor
    · intro refused grammatical
      obtain ⟨flaw, failed⟩ := refused
      obtain ⟨scheme, path, written⟩ := grammatical
      rw [parse_eq_ok.mpr ⟨scheme, path, written, rfl⟩] at failed
      cases failed
    · intro ungrammatical
      rcases parse_cases text with ⟨uri, accepted⟩ | refused
      · obtain ⟨scheme, path, written, -⟩ := parse_eq_ok.mp accepted
        exact absurd ⟨scheme, path, written⟩ ungrammatical
      · exact refused
  · intro uri accepted
    obtain ⟨scheme, path, written, same⟩ := parse_eq_ok.mp accepted
    have shown : uri.render = scheme.toLower ++ "://" ++ path := by
      rw [same]
      rfl
    have again : parse uri.render = .ok uri := by
      rw [shown, parse_eq_ok]
      exact ⟨_, _, written.lower, by rw [to_lower_to_lower, same]⟩
    refine ⟨again, ⟨scheme, path, written, shown⟩, ?_⟩
    intro system
    rw [Archive.ofUri, Archive.ofUri, again, accepted]

namespace SampleUri

theorem written : IsWritten "Zip://a://B.zip" "Zip" "a://B.zip" where
  scheme_valid := scheme_flaw_eq_none.mp (by decide)
  path_nonempty := by decide
  text_eq := by decide

end SampleUri

open SampleUri in
theorem sample_uri_read_back :
    IsWritten "Zip://a://B.zip" "Zip" "a://B.zip" ∧
      parse "Zip://a://B.zip" = .ok ⟨"zip", "a://B.zip"⟩ ∧
      parse "zip://a://B.zip" = .ok ⟨"zip", "a://B.zip"⟩ ∧
      ∀ system,
        Archive.ofUri system "zip://a://B.zip" = Archive.ofUri system "Zip://a://B.zip" := by
  obtain ⟨accepts, -, -, again⟩ := parse_accepts_grammar "Zip://a://B.zip"
  have lowered : "zip" = "Zip".toLower := by
    rw [← String.toList_inj, to_list_to_lower]
    decide
  have accepted : parse "Zip://a://B.zip" = .ok ⟨"zip", "a://B.zip"⟩ :=
    (accepts _).mpr ⟨"Zip", "a://B.zip", written, by rw [lowered]⟩
  obtain ⟨readBack, -, opensSame⟩ := again _ accepted
  have shown : render ⟨"zip", "a://B.zip"⟩ = "zip://a://B.zip" := by decide
  rw [shown] at readBack opensSame
  exact ⟨written, accepted, readBack, opensSame⟩

end ArchiveBrowser.Uri
