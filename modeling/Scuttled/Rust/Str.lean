import Mathlib.Data.List.DropRight
import Mathlib.Data.List.Infix

/-!
# String slices of the Rust standard library

A Rust `str` is a sequence of Unicode scalar values, which is what a `String`
is here.  Each function is given on the list of characters, under the name the
standard library has for it.  Full case mapping is a table of the Unicode
database; the development is generic in that table and uses only the two facts
of `UnicodeCase`.
-/

namespace Scuttled.Rust

/-! ## Characters -/

-- A property of the characters of a text is decided along the text, not by
-- trying every scalar value.
instance (priority := 2000) decidableForallMem (p : Char → Prop) [DecidablePred p]
    (text : List Char) : Decidable (∀ c ∈ text, p c) :=
  List.decidableBAll p text

/-- `char::is_whitespace`: the code points with the property `White_Space`. -/
def isWhitespace (c : Char) : Bool :=
  let n := c.toNat
  (9 ≤ n && n ≤ 13) || n == 0x20 || n == 0x85 || n == 0xA0 || n == 0x1680 ||
    (0x2000 ≤ n && n ≤ 0x200A) || n == 0x2028 || n == 0x2029 || n == 0x202F ||
    n == 0x205F || n == 0x3000

/-- `char::to_uppercase`, which may yield several characters.  Upper-case text
is a fixed point, and on ASCII the mapping is the ASCII one. -/
class UnicodeCase where
  upper : Char → List Char
  upper_ascii : ∀ c : Char, c.toNat < 128 → upper c = [c.toUpper]
  upper_upper : ∀ c : Char, (upper c).flatMap upper = upper c

theorem toNat_toLower (c : Char) :
    c.toLower.toNat = if 65 ≤ c.toNat ∧ c.toNat ≤ 90 then c.toNat + 32 else c.toNat := by
  have hA : 'A'.val.toNat = 65 := rfl
  have hZ : 'Z'.val.toNat = 90 := rfl
  have hshift : ('a'.val - 'A'.val).toNat = 32 := rfl
  delta Char.toLower Char.toNat
  simp only [ge_iff_le, UInt32.le_iff_toNat_le, hA, hZ]
  split
  · simp only [UInt32.toNat_add, hshift]
    omega
  · rfl

theorem toNat_toUpper (c : Char) :
    c.toUpper.toNat = if 97 ≤ c.toNat ∧ c.toNat ≤ 122 then c.toNat - 32 else c.toNat := by
  have ha : 'a'.val.toNat = 97 := rfl
  have hz : 'z'.val.toNat = 122 := rfl
  have hshift : ('A'.val - 'a'.val).toNat = 4294967264 := rfl
  delta Char.toUpper Char.toNat
  simp only [UInt32.le_iff_toNat_le, ha, hz]
  split
  · simp only [UInt32.toNat_add, hshift]
    omega
  · rfl

theorem toUpper_toUpper (c : Char) : c.toUpper.toUpper = c.toUpper := by
  rw [← Char.toNat_inj, toNat_toUpper, toNat_toUpper]
  split
  · rw [if_neg (by omega)]
  · rfl

theorem toUpper_eq_of_toLower_eq {c letter : Char} (hascii : letter.toNat < 128)
    (hlower : c.toLower = letter.toLower) : c.toNat < 128 ∧ c.toUpper = letter.toUpper := by
  have hnat := congrArg Char.toNat hlower
  rw [toNat_toLower, toNat_toLower] at hnat
  refine ⟨by split at hnat <;> split at hnat <;> omega, ?_⟩
  rw [← Char.toNat_inj, toNat_toUpper, toNat_toUpper]
  split at hnat <;> split at hnat <;> split <;> split <;> omega

/-- The table of a text that is ASCII throughout. -/
@[reducible] def UnicodeCase.ascii : UnicodeCase where
  upper c := [c.toUpper]
  upper_ascii _ _ := rfl
  upper_upper c := by
    rw [List.flatMap_singleton, toUpper_toUpper]

/-! ## Functions on slices -/

/-- `str::split_whitespace`: the non-empty pieces between whitespace. -/
def splitWhitespace (s : String) : List String :=
  ((s.toList.splitOnP isWhitespace).filter fun piece => !piece.isEmpty).map String.ofList

/-- `str::trim_matches` for a predicate on characters. -/
def trimMatches (p : Char → Bool) (s : String) : String :=
  String.ofList ((s.toList.dropWhile p).rdropWhile p)

def trim (s : String) : String := trimMatches isWhitespace s

/-- `str::splitn(2, c)`: one piece when `c` does not occur, otherwise what
stands before its first occurrence and everything after it. -/
def splitn2 (c : Char) (s : String) : List String :=
  match s.toList.span (· != c) with
  | (all, []) => [String.ofList all]
  | (before, _ :: after) => [String.ofList before, String.ofList after]

theorem splitn2_append {c : Char} {before : String} (hbefore : c ∉ before.toList)
    (after : String) : splitn2 c (before ++ String.singleton c ++ after) = [before, after] := by
  have hall : ∀ x ∈ before.toList, (x != c) = true := fun x hx =>
    bne_iff_ne.mpr fun heq => hbefore (heq ▸ hx)
  have hspan : (before ++ String.singleton c ++ after).toList.span (· != c) =
      (before.toList, c :: after.toList) := by
    rw [List.span_eq_takeWhile_dropWhile, String.toList_append, String.toList_append,
      List.append_assoc, List.takeWhile_append_of_pos hall, List.dropWhile_append_of_pos hall]
    simp
  rw [splitn2, hspan]
  simp only [String.ofList_toList]

theorem suffix_of_splitn2 {c : Char} {text before after : String}
    (hsplit : splitn2 c text = [before, after]) : after.toList <:+ text.toList := by
  rw [splitn2, List.span_eq_takeWhile_dropWhile] at hsplit
  split at hsplit
  · cases hsplit
  · rename_i start found rest hspan
    obtain ⟨-, hdrop⟩ := Prod.mk.inj hspan
    cases hsplit
    rw [String.toList_ofList]
    exact (List.suffix_cons _ _).trans (hdrop ▸ List.dropWhile_suffix _)

def toUppercase [UnicodeCase] (s : String) : String :=
  String.ofList (s.toList.flatMap UnicodeCase.upper)

def eqIgnoreAsciiCase (s t : String) : Bool :=
  s.toList.map Char.toLower == t.toList.map Char.toLower

/-- `str::contains` for one character. -/
def contains (c : Char) (s : String) : Bool := s.toList.contains c

/-- `str::contains` for a text. -/
def containsText (s pattern : String) : Bool := decide (pattern.toList <:+: s.toList)

/-- `str::starts_with` for a slice. -/
def startsWith (s start : String) : Bool := start.toList.isPrefixOf s.toList

/-- `str::ends_with` for a slice. -/
def endsWith (s ending : String) : Bool := ending.toList.isSuffixOf s.toList

/-- `[str]::join(" ")`. -/
def joinSpace (pieces : List String) : String := " ".intercalate pieces

/-! ## Searching -/

/-- What stands before the first occurrence of a text, which is where `str::find`
finds it. -/
def before (pattern : List Char) : List Char → Option (List Char)
  | [] => if pattern.isEmpty then some [] else none
  | c :: rest =>
      if pattern.isPrefixOf (c :: rest) then some [] else (before pattern rest).map (c :: ·)

theorem before_eq_none_iff {pattern : List Char} (hpattern : pattern ≠ []) {text : List Char} :
    before pattern text = none ↔ ¬ pattern <:+: text := by
  induction text with
  | nil => simp [before, hpattern]
  | cons c rest ih =>
      rw [before, List.infix_cons_iff, not_or, ← ih]
      split
      · rename_i hbegins
        simp [List.isPrefixOf_iff_prefix.mp hbegins]
      · rename_i hbegins
        rw [List.isPrefixOf_iff_prefix] at hbegins
        simp [hbegins]

theorem append_of_before {pattern text start : List Char} (hbefore : before pattern text = some start) :
    ∃ rest, text = start ++ pattern ++ rest := by
  induction text generalizing start with
  | nil =>
      unfold before at hbefore
      split at hbefore
      · rename_i hpattern
        cases hbefore
        exact ⟨[], by simp [List.isEmpty_iff.mp hpattern]⟩
      · cases hbefore
  | cons c rest ih =>
      unfold before at hbefore
      split at hbefore
      · rename_i hbegins
        cases hbefore
        obtain ⟨after, hafter⟩ := List.isPrefixOf_iff_prefix.mp hbegins
        exact ⟨after, hafter.symm⟩
      · obtain ⟨start', hstart', rfl⟩ := Option.map_eq_some_iff.mp hbefore
        obtain ⟨after, rfl⟩ := ih hstart'
        exact ⟨after, rfl⟩

theorem before_of_before {pattern : List Char} (hpattern : pattern ≠ []) {text start : List Char}
    (hbefore : before pattern text = some start) : before pattern start = none := by
  induction text generalizing start with
  | nil =>
      unfold before at hbefore
      rw [if_neg (by simpa using hpattern)] at hbefore
      cases hbefore
  | cons c rest ih =>
      unfold before at hbefore
      split at hbefore
      · cases hbefore
        exact if_neg (by simpa using hpattern)
      · rename_i hbegins
        obtain ⟨start', hstart', rfl⟩ := Option.map_eq_some_iff.mp hbefore
        obtain ⟨after, rfl⟩ := append_of_before hstart'
        have hnot : ¬ pattern.isPrefixOf (c :: start') = true := by
          rw [List.isPrefixOf_iff_prefix] at hbegins ⊢
          intro hstart
          refine hbegins (hstart.trans ?_)
          rw [List.append_assoc]
          exact List.prefix_append (c :: start') _
        rw [before, if_neg hnot, ih hstart']
        rfl

/-! ## Tokens -/

/-- No character of the text is whitespace. -/
def NoWhitespace (s : String) : Prop := ∀ c ∈ s.toList, isWhitespace c = false

instance (s : String) : Decidable (NoWhitespace s) :=
  inferInstanceAs (Decidable (∀ c ∈ s.toList, isWhitespace c = false))

structure IsToken (s : String) : Prop where
  ne_nil : s.toList ≠ []
  noWhitespace : NoWhitespace s

theorem mem_of_mem_splitOnP {α : Type*} {p : α → Bool} {xs piece : List α}
    (hpiece : piece ∈ xs.splitOnP p) {x : α} (hx : x ∈ piece) :
    x ∈ xs ∧ p x = false := by
  induction xs generalizing piece with
  | nil =>
      rw [List.splitOnP_nil, List.mem_singleton] at hpiece
      subst hpiece
      cases hx
  | cons y ys ih =>
      rw [List.splitOnP_cons_eq_if_modifyHead] at hpiece
      cases hy : p y with
      | true =>
          simp only [hy, if_true, List.mem_cons] at hpiece
          rcases hpiece with rfl | hpiece
          · cases hx
          · exact ⟨List.mem_cons_of_mem _ (ih hpiece hx).1, (ih hpiece hx).2⟩
      | false =>
          simp only [hy, Bool.false_eq_true, if_false] at hpiece
          obtain ⟨first, others, hsplit⟩ :=
            List.exists_cons_of_ne_nil (List.splitOnP_ne_nil p ys)
          rw [hsplit, List.modifyHead_cons, List.mem_cons] at hpiece
          rcases hpiece with rfl | hpiece
          · rcases List.mem_cons.mp hx with rfl | hx
            · exact ⟨List.mem_cons_self, hy⟩
            · have := ih (hsplit ▸ List.mem_cons_self) hx
              exact ⟨List.mem_cons_of_mem _ this.1, this.2⟩
          · have := ih (hsplit ▸ List.mem_cons_of_mem _ hpiece) hx
            exact ⟨List.mem_cons_of_mem _ this.1, this.2⟩

theorem isToken_of_mem_splitWhitespace {s piece : String}
    (hpiece : piece ∈ splitWhitespace s) : IsToken piece := by
  simp only [splitWhitespace, List.mem_map, List.mem_filter] at hpiece
  obtain ⟨chars, ⟨hchars, hne⟩, rfl⟩ := hpiece
  refine ⟨by simpa using hne, fun c hc => ?_⟩
  rw [String.toList_ofList] at hc
  exact (mem_of_mem_splitOnP hchars hc).2

theorem splitWhitespace_of_isToken {s : String} (hs : IsToken s) :
    splitWhitespace s = [s] := by
  have hne : s.toList.isEmpty = false := by simpa using hs.ne_nil
  simp [splitWhitespace, List.splitOnP_eq_singleton hs.noWhitespace, hne,
    String.ofList_toList]

theorem splitWhitespace_token_append {s : String} (hs : IsToken s) (rest : String) :
    splitWhitespace (s ++ " " ++ rest) = s :: splitWhitespace rest := by
  have hne : s.toList.isEmpty = false := by simpa using hs.ne_nil
  have hspace : " ".toList = [' '] := rfl
  simp [splitWhitespace, String.toList_append, hspace,
    List.splitOnP_append_cons_of_forall_mem hs.noWhitespace ' ' (by decide), hne,
    String.ofList_toList]

theorem splitWhitespace_space_append (rest : String) :
    splitWhitespace (" " ++ rest) = splitWhitespace rest := by
  have hspace : " ".toList = [' '] := rfl
  simp [splitWhitespace, String.toList_append, hspace,
    List.splitOnP_cons_eq_if_modifyHead, show isWhitespace ' ' = true by decide]

/-! ## Trimming -/

theorem mem_of_mem_trimMatches {p : Char → Bool} {s : String} {c : Char}
    (hc : c ∈ (trimMatches p s).toList) : c ∈ s.toList := by
  rw [trimMatches, String.toList_ofList] at hc
  exact (List.dropWhile_sublist p).subset ((List.rdropWhile_prefix p _).subset hc)

/-- A text that trimming leaves as it is neither begins nor ends with what is
trimmed. -/
theorem trimMatches_eq_self_iff {p : Char → Bool} {s : String} :
    trimMatches p s = s ↔ s.toList.dropWhile p = s.toList ∧ s.toList.rdropWhile p = s.toList := by
  rw [trimMatches, ← String.toList_inj, String.toList_ofList]
  constructor
  · intro htrim
    have hdrop : s.toList.dropWhile p = s.toList := by
      apply (List.dropWhile_suffix p).eq_of_length_le
      have hshort := (List.rdropWhile_prefix p (s.toList.dropWhile p)).length_le
      rwa [htrim] at hshort
    rw [hdrop] at htrim
    exact ⟨hdrop, htrim⟩
  · rintro ⟨hdrop, hrdrop⟩
    rw [hdrop, hrdrop]

@[simp] theorem trimMatches_trimMatches (p : Char → Bool) (s : String) :
    trimMatches p (trimMatches p s) = trimMatches p s := by
  rw [trimMatches_eq_self_iff, trimMatches, String.toList_ofList]
  refine ⟨?_, List.rdropWhile_idempotent p _⟩
  rw [List.dropWhile_eq_self_iff]
  intro hpos
  -- what is left begins as it did before its end was trimmed
  have hbegins := List.rdropWhile_prefix p (s.toList.dropWhile p)
  have hlong : 0 < (s.toList.dropWhile p).length := hpos.trans_le hbegins.length_le
  rw [hbegins.getElem hpos]
  exact List.dropWhile_eq_self_iff.mp (List.dropWhile_idempotent p s.toList) hlong

theorem trimMatches_eq_self {p : Char → Bool} {s : String}
    (hs : ∀ c ∈ s.toList, p c = false) : trimMatches p s = s := by
  rw [trimMatches_eq_self_iff, List.dropWhile_eq_self_iff, List.rdropWhile_eq_self_iff]
  constructor
  · intro hpos
    simp [hs _ (List.getElem_mem hpos)]
  · intro hne
    simp [hs _ (List.getLast_mem hne)]

/-- Trimming removes one pair of matching delimiters from around a text that it
leaves as it is. -/
theorem trimMatches_delimited {p : Char → Bool} {c : Char} {s : String}
    (hc : p c = true) (hs : trimMatches p s = s) :
    trimMatches p (String.ofList (c :: s.toList ++ [c])) = s := by
  obtain ⟨hdrop, hrdrop⟩ := trimMatches_eq_self_iff.mp hs
  rw [trimMatches, String.toList_ofList, List.cons_append, List.dropWhile_cons_of_pos hc]
  by_cases hnil : s.toList = []
  · rw [String.toList_eq_nil_iff.mp hnil]
    simp [hc]
  · have hpos : 0 < s.toList.length := List.length_pos_iff.mpr hnil
    have hfirst := List.dropWhile_eq_self_iff.mp hdrop hpos
    have hkept : (s.toList ++ [c]).dropWhile p = s.toList ++ [c] := by
      rw [List.dropWhile_eq_self_iff]
      intro hlong
      rwa [List.getElem_append_left hpos]
    rw [hkept, List.rdropWhile_concat_pos p _ c hc, hrdrop, String.ofList_toList]
/-! ## Case -/

@[simp] theorem toUppercase_toUppercase [UnicodeCase] (s : String) :
    toUppercase (toUppercase s) = toUppercase s := by
  simp only [toUppercase, String.toList_ofList, List.flatMap_assoc,
    UnicodeCase.upper_upper]

/-- A character that lower-cases like an upper-case ASCII letter is that letter
or its lower-case form. -/
theorem toUpper_of_toLower_eq {c letter : Char} (hletter : letter.isUpper = true)
    (hlower : c.toLower = letter.toLower) :
    (65 ≤ c.toNat ∧ c.toNat ≤ 122) ∧ c.toUpper = letter := by
  have hbound : 65 ≤ letter.toNat ∧ letter.toNat ≤ 90 := by
    have hA : 'A'.val.toNat = 65 := rfl
    have hZ : 'Z'.val.toNat = 90 := rfl
    delta Char.isUpper at hletter
    simpa [UInt32.le_iff_toNat_le, hA, hZ] using hletter
  have hnat := congrArg Char.toNat hlower
  rw [toNat_toLower, toNat_toLower, if_pos hbound] at hnat
  have hupper := (toUpper_eq_of_toLower_eq (by omega) hlower).2
  refine ⟨by split at hnat <;> omega, ?_⟩
  rw [hupper, ← Char.toNat_inj, toNat_toUpper, if_neg (by omega)]

theorem upper_of_toLower_eq [UnicodeCase] {c letter : Char} (hletter : letter.isUpper = true)
    (hlower : c.toLower = letter.toLower) : UnicodeCase.upper c = [letter] := by
  have hcase := toUpper_of_toLower_eq hletter hlower
  rw [UnicodeCase.upper_ascii c (by omega), hcase.2]

theorem isToken_of_eqIgnoreAsciiCase {s word : String} (hne : word.toList ≠ [])
    (hword : ∀ c ∈ word.toList, c.isUpper = true) (hs : eqIgnoreAsciiCase s word = true) :
    IsToken s := by
  have hmap : s.toList.map Char.toLower = word.toList.map Char.toLower := by
    simpa [eqIgnoreAsciiCase] using hs
  constructor
  · intro hnil
    rw [hnil] at hmap
    exact hne (by simpa using hmap.symm)
  · intro c hc
    have hlower : c.toLower ∈ word.toList.map Char.toLower :=
      hmap ▸ List.mem_map_of_mem hc
    obtain ⟨letter, hletter, hsame⟩ := List.mem_map.mp hlower
    have hrange := (toUpper_of_toLower_eq (hword letter hletter) hsame.symm).1
    simp only [isWhitespace]
    grind

theorem toUppercase_of_eqIgnoreAsciiCase [UnicodeCase] {s word : String}
    (hword : ∀ c ∈ word.toList, c.isUpper = true) (hs : eqIgnoreAsciiCase s word = true) :
    toUppercase s = word := by
  have hmap : s.toList.map Char.toLower = word.toList.map Char.toLower := by
    simpa [eqIgnoreAsciiCase] using hs
  suffices hchars : ∀ xs ys : List Char, xs.map Char.toLower = ys.map Char.toLower →
      (∀ c ∈ ys, c.isUpper = true) → xs.flatMap UnicodeCase.upper = ys by
    rw [toUppercase, hchars _ _ hmap hword, String.ofList_toList]
  intro xs
  induction xs with
  | nil =>
      intro ys hys _
      simpa using hys.symm
  | cons x rest ih =>
      intro ys hys hupper
      cases ys with
      | nil => simp at hys
      | cons y others =>
          simp only [List.map_cons, List.cons.injEq] at hys
          rw [List.flatMap_cons, upper_of_toLower_eq (hupper y List.mem_cons_self) hys.1,
            ih others hys.2 (fun c hc => hupper c (List.mem_cons_of_mem _ hc))]
          rfl

theorem toUppercase_eq_of_eqIgnoreAsciiCase [UnicodeCase] {spelling name : String}
    (hascii : ∀ c ∈ name.toList, c.toNat < 128)
    (hspelling : eqIgnoreAsciiCase spelling name = true) :
    toUppercase spelling = toUppercase name := by
  have hmap : spelling.toList.map Char.toLower = name.toList.map Char.toLower := by
    simpa [eqIgnoreAsciiCase] using hspelling
  suffices hchars : ∀ xs ys : List Char, xs.map Char.toLower = ys.map Char.toLower →
      (∀ c ∈ ys, c.toNat < 128) →
      xs.flatMap UnicodeCase.upper = ys.flatMap UnicodeCase.upper by
    rw [toUppercase, hchars _ _ hmap hascii, toUppercase]
  intro xs
  induction xs with
  | nil =>
      intro ys hys _
      rw [List.map_nil, eq_comm, List.map_eq_nil_iff] at hys
      rw [hys]
  | cons x rest ih =>
      intro ys hys hall
      cases ys with
      | nil => simp at hys
      | cons y others =>
          simp only [List.map_cons, List.cons.injEq] at hys
          have hy := hall y List.mem_cons_self
          obtain ⟨hx, hupper⟩ := toUpper_eq_of_toLower_eq hy hys.1
          rw [List.flatMap_cons, List.flatMap_cons, UnicodeCase.upper_ascii x hx,
            UnicodeCase.upper_ascii y hy, hupper,
            ih others hys.2 fun c hc => hall c (List.mem_cons_of_mem _ hc)]

end Scuttled.Rust
