import Mathlib.Data.List.Basic

/-!
# Regular expressions: concatenations of repeated classes and anchors

The syntax and the meaning of the expressions that are one concatenation of
single-character classes, each possibly under a star, and of the two anchors.
The concrete syntax is a relation between texts and expressions; a parser and a
matcher for it are given and proved right, so that whatever is stated about an
arbitrary engine for this syntax has an instance.
-/

namespace Scuttled.Foundation

/-! ## Expressions and their meaning -/

inductive CharClass where
  | exactly (c : Char)
  | notLineFeed
  | except (c : Char)
  deriving DecidableEq, Repr

/-- Whether a class contains a character. -/
def CharClass.holds : CharClass → Char → Bool
  | .exactly c, d => d == c
  | .notLineFeed, d => d != '\n'
  | .except c, d => d != c

inductive RegexItem where
  | one (cls : CharClass)
  | many (cls : CharClass)
  | start
  | stop
  deriving DecidableEq, Repr

abbrev Regex := List RegexItem

/-- A match of the items that begins at a position of the haystack: whether
that position is the start of it, and what follows the position. -/
inductive MatchesFrom : Regex → Bool → List Char → Prop where
  | done (atStart : Bool) (rest : List Char) : MatchesFrom [] atStart rest
  | one {cls : CharClass} {items : Regex} {atStart : Bool} {c : Char} {rest : List Char} :
      cls.holds c = true → MatchesFrom items false rest →
      MatchesFrom (.one cls :: items) atStart (c :: rest)
  | skip {cls : CharClass} {items : Regex} {atStart : Bool} {rest : List Char} :
      MatchesFrom items atStart rest → MatchesFrom (.many cls :: items) atStart rest
  | again {cls : CharClass} {items : Regex} {atStart : Bool} {c : Char} {rest : List Char} :
      cls.holds c = true → MatchesFrom (.many cls :: items) false rest →
      MatchesFrom (.many cls :: items) atStart (c :: rest)
  | start {items : Regex} {rest : List Char} :
      MatchesFrom items true rest → MatchesFrom (.start :: items) true rest
  | stop {items : Regex} {atStart : Bool} :
      MatchesFrom items atStart [] → MatchesFrom (.stop :: items) atStart []

/-- The expression matches somewhere in the haystack. -/
def Regex.FoundIn (regex : Regex) (haystack : List Char) : Prop :=
  ∃ before rest, haystack = before ++ rest ∧ MatchesFrom regex before.isEmpty rest

/-- An anchored expression is found in a haystack exactly when it matches from
the beginning. -/
theorem foundIn_start_iff {items : Regex} {haystack : List Char} :
    Regex.FoundIn (.start :: items) haystack ↔ MatchesFrom items true haystack := by
  constructor
  · rintro ⟨before, rest, rfl, hmatch⟩
    cases before with
    | nil =>
        cases hmatch with
        | start hitems => exact hitems
    | cons c cs => cases hmatch
  · intro hmatch
    exact ⟨[], haystack, rfl, .start hmatch⟩

theorem matchesFrom_stop_iff {atStart : Bool} {rest : List Char} :
    MatchesFrom [.stop] atStart rest ↔ rest = [] := by
  constructor
  · intro hmatch
    cases hmatch
    rfl
  · rintro rfl
    exact .stop (.done _ _)

theorem matchesFrom_one_iff {cls : CharClass} {items : Regex} {atStart : Bool}
    {rest : List Char} :
    MatchesFrom (.one cls :: items) atStart rest ↔
      ∃ c others, rest = c :: others ∧ cls.holds c = true ∧ MatchesFrom items false others := by
  constructor
  · intro hmatch
    cases hmatch with
    | one hc hitems => exact ⟨_, _, rfl, hc, hitems⟩
  · rintro ⟨c, others, rfl, hc, hitems⟩
    exact .one hc hitems

theorem matchesFrom_many_iff {cls : CharClass} {items : Regex} {atStart : Bool}
    {rest : List Char} :
    MatchesFrom (.many cls :: items) atStart rest ↔
      ∃ run others, rest = run ++ others ∧ (∀ c ∈ run, cls.holds c = true) ∧
        MatchesFrom items (atStart && run.isEmpty) others := by
  constructor
  · intro hmatch
    induction rest generalizing atStart with
    | nil =>
        cases hmatch with
        | skip hitems => exact ⟨[], [], rfl, by simp, by simpa using hitems⟩
    | cons c others ih =>
        cases hmatch with
        | skip hitems => exact ⟨[], c :: others, rfl, by simp, by simpa using hitems⟩
        | again hc hmore =>
            obtain ⟨run, left, rfl, hrun, hitems⟩ := ih hmore
            refine ⟨c :: run, left, rfl, ?_, by simpa using hitems⟩
            rintro d hd
            rcases List.mem_cons.mp hd with rfl | hd
            · exact hc
            · exact hrun d hd
  · rintro ⟨run, others, rfl, hrun, hitems⟩
    induction run generalizing atStart with
    | nil => exact .skip (by simpa using hitems)
    | cons c run ih =>
        refine .again (hrun c List.mem_cons_self) (ih (fun d hd => ?_) (by simpa using hitems))
        exact hrun d (List.mem_cons_of_mem _ hd)

/-! ## Concrete syntax -/

/-- The characters with a meaning of their own outside a class. -/
def isMetaCharacter (c : Char) : Bool :=
  c ∈ ['\\', '.', '+', '*', '?', '(', ')', '|', '[', ']', '{', '}', '^', '$']

/-- The characters with a meaning of their own inside a negated class. -/
def isClassCharacter (c : Char) : Bool :=
  c ∈ ['\\', '[', ']', '^', '-', '&', '~']

/-- The texts of a single class. -/
inductive SpellsClass : List Char → CharClass → Prop where
  | literal {c : Char} : isMetaCharacter c = false → SpellsClass [c] (.exactly c)
  | escaped {c : Char} : isMetaCharacter c = true → SpellsClass ['\\', c] (.exactly c)
  | dot : SpellsClass ['.'] .notLineFeed
  | negated {c : Char} : isClassCharacter c = false → SpellsClass ['[', '^', c, ']'] (.except c)

/-- The texts of an expression.  A star binds to the class before it. -/
inductive Spells : List Char → Regex → Prop where
  | nil : Spells [] []
  | start {text : List Char} {items : Regex} :
      Spells text items → Spells ('^' :: text) (.start :: items)
  | stop {text : List Char} {items : Regex} :
      Spells text items → Spells ('$' :: text) (.stop :: items)
  | one {atom text : List Char} {cls : CharClass} {items : Regex} :
      SpellsClass atom cls → Spells text items → Spells (atom ++ text) (.one cls :: items)
  | many {atom text : List Char} {cls : CharClass} {items : Regex} :
      SpellsClass atom cls → Spells text items →
      Spells (atom ++ '*' :: text) (.many cls :: items)

theorem Spells.head_ne_star {text : List Char} {items : Regex} (hspells : Spells text items) :
    ∀ rest, text ≠ '*' :: rest := by
  have hatom {atom tail rest : List Char} {cls : CharClass} (hclass : SpellsClass atom cls) :
      atom ++ tail ≠ '*' :: rest := by
    cases hclass with
    | literal hc =>
        intro heq
        obtain ⟨rfl, -⟩ : _ = '*' ∧ _ := by simpa using heq
        exact absurd hc (by decide)
    | escaped _ => simp
    | dot => simp
    | negated _ => simp
  intro rest
  cases hspells with
  | nil => simp
  | start _ => simp
  | stop _ => simp
  | one hclass _ => exact hatom hclass
  | many hclass _ => exact hatom hclass

/-! ## A parser and a matcher -/

/-- Reads one class off the front of a text. -/
def parseClass : List Char → Option (CharClass × List Char)
  | [] => none
  | '.' :: rest => some (.notLineFeed, rest)
  | '\\' :: c :: rest => if isMetaCharacter c then some (.exactly c, rest) else none
  | '[' :: '^' :: c :: ']' :: rest => if isClassCharacter c then none else some (.except c, rest)
  | c :: rest => if isMetaCharacter c then none else some (.exactly c, rest)

/-- Reads an expression; the first argument bounds the number of its items. -/
def parseItems : Nat → List Char → Option Regex
  | _, [] => some []
  | 0, _ :: _ => none
  | fuel + 1, '^' :: rest => (parseItems fuel rest).map (.start :: ·)
  | fuel + 1, '$' :: rest => (parseItems fuel rest).map (.stop :: ·)
  | fuel + 1, text =>
      match parseClass text with
      | none => none
      | some (cls, '*' :: rest) => (parseItems fuel rest).map (.many cls :: ·)
      | some (cls, rest) => (parseItems fuel rest).map (.one cls :: ·)

/-- The expression a text spells, if it spells one. -/
def parseRegex (text : List Char) : Option Regex := parseItems text.length text

theorem parseClass_of_spellsClass {atom : List Char} {cls : CharClass}
    (hclass : SpellsClass atom cls) (rest : List Char) :
    parseClass (atom ++ rest) = some (cls, rest) := by
  cases hclass with
  | @literal c hc =>
      have hne : c ≠ '.' ∧ c ≠ '\\' ∧ c ≠ '[' := by
        refine ⟨?_, ?_, ?_⟩ <;> rintro rfl <;> exact absurd hc (by decide)
      simp only [List.cons_append, List.nil_append]
      unfold parseClass
      split <;> simp_all
  | escaped hc => simp [parseClass, hc]
  | dot => simp [parseClass]
  | negated hc => simp [parseClass, hc]

theorem SpellsClass.head_ne {atom : List Char} {cls : CharClass}
    (hclass : SpellsClass atom cls) :
    ∃ c rest, atom = c :: rest ∧ c ≠ '^' ∧ c ≠ '$' := by
  cases hclass with
  | literal hc =>
      refine ⟨_, _, rfl, ?_, ?_⟩ <;> rintro rfl <;> exact absurd hc (by decide)
  | escaped hc => exact ⟨_, _, rfl, by decide, by decide⟩
  | dot => exact ⟨_, _, rfl, by decide, by decide⟩
  | negated hc => exact ⟨_, _, rfl, by decide, by decide⟩

/-- With enough fuel the parser finds the expression a text spells. -/
theorem parseItems_of_spells {text : List Char} {regex : Regex} (hspells : Spells text regex) :
    ∀ fuel, text.length ≤ fuel → parseItems fuel text = some regex := by
  induction hspells with
  | nil => intro fuel _; cases fuel <;> rfl
  | start _ ih =>
      intro fuel hfuel
      cases fuel with
      | zero => simp at hfuel
      | succ fuel => simp [parseItems, ih fuel (by simpa using hfuel)]
  | stop _ ih =>
      intro fuel hfuel
      cases fuel with
      | zero => simp at hfuel
      | succ fuel => simp [parseItems, ih fuel (by simpa using hfuel)]
  | @one atom text cls items hclass hrest ih =>
      intro fuel hfuel
      obtain ⟨c, others, rfl, hcaret, hdollar⟩ := hclass.head_ne
      cases fuel with
      | zero => simp at hfuel
      | succ fuel =>
          have hparse := parseClass_of_spellsClass hclass text
          simp only [List.cons_append] at hparse ⊢
          have hlater := ih fuel (by simp at hfuel; omega)
          cases text with
          | nil =>
              rw [List.append_nil] at hparse ⊢
              simp [parseItems, hparse, hcaret, hdollar, hlater]
          | cons d later =>
              have hstar : d ≠ '*' := fun hd => hrest.head_ne_star later (by rw [hd])
              simp [parseItems, hparse, hcaret, hdollar, hstar, hlater]
  | @many atom text cls items hclass _ ih =>
      intro fuel hfuel
      obtain ⟨c, others, rfl, hcaret, hdollar⟩ := hclass.head_ne
      cases fuel with
      | zero => simp at hfuel
      | succ fuel =>
          have hparse := parseClass_of_spellsClass hclass ('*' :: text)
          have hlater := ih fuel (by simp at hfuel; omega)
          simp only [List.cons_append] at hparse ⊢
          simp [parseItems, hparse, hcaret, hdollar, hlater]

theorem parseRegex_of_spells {text : List Char} {regex : Regex} (hspells : Spells text regex) :
    parseRegex text = some regex :=
  parseItems_of_spells hspells _ (Nat.le_refl _)

/-- Tries what follows a starred class after every run of the class. -/
def matchMany (next : Bool → List Char → Bool) (cls : CharClass) : Bool → List Char → Bool
  | atStart, [] => next atStart []
  | atStart, c :: rest =>
      next atStart (c :: rest) || (cls.holds c && matchMany next cls false rest)

/-- Decides whether a match begins at a position. -/
def matchHere : Regex → Bool → List Char → Bool
  | [], _, _ => true
  | .one _ :: _, _, [] => false
  | .one cls :: items, _, c :: rest => cls.holds c && matchHere items false rest
  | .many cls :: items, atStart, rest => matchMany (matchHere items) cls atStart rest
  | .start :: items, atStart, rest => atStart && matchHere items true rest
  | .stop :: items, atStart, rest => rest.isEmpty && matchHere items atStart rest

/-- Decides whether a match begins anywhere. -/
def search (regex : Regex) : Bool → List Char → Bool
  | atStart, [] => matchHere regex atStart []
  | atStart, c :: rest => matchHere regex atStart (c :: rest) || search regex false rest

theorem matchMany_iff {next : Bool → List Char → Bool} {cls : CharClass} {items : Regex}
    (hnext : ∀ atStart rest, next atStart rest = true ↔ MatchesFrom items atStart rest)
    (atStart : Bool) (rest : List Char) :
    matchMany next cls atStart rest = true ↔ MatchesFrom (.many cls :: items) atStart rest := by
  induction rest generalizing atStart with
  | nil =>
      rw [matchMany, hnext]
      constructor
      · exact .skip
      · intro hmatch
        cases hmatch with
        | skip hitems => exact hitems
  | cons c rest ih =>
      rw [matchMany, Bool.or_eq_true, Bool.and_eq_true, hnext, ih]
      constructor
      · rintro (hitems | ⟨hc, hmore⟩)
        · exact .skip hitems
        · exact .again hc hmore
      · intro hmatch
        cases hmatch with
        | skip hitems => exact .inl hitems
        | again hc hmore => exact .inr ⟨hc, hmore⟩

theorem matchHere_iff (regex : Regex) (atStart : Bool) (rest : List Char) :
    matchHere regex atStart rest = true ↔ MatchesFrom regex atStart rest := by
  induction regex generalizing atStart rest with
  | nil => simp [matchHere, MatchesFrom.done]
  | cons item items ih =>
      cases item with
      | one cls =>
          rw [matchesFrom_one_iff]
          cases rest <;> simp [matchHere, ih]
      | many cls => exact matchMany_iff ih atStart rest
      | start =>
          rw [matchHere, Bool.and_eq_true, ih]
          constructor
          · rintro ⟨rfl, hitems⟩
            exact .start hitems
          · intro hmatch
            cases hmatch with
            | start hitems => exact ⟨rfl, hitems⟩
      | stop =>
          rw [matchHere, Bool.and_eq_true, ih, List.isEmpty_iff]
          constructor
          · rintro ⟨rfl, hitems⟩
            exact .stop hitems
          · intro hmatch
            cases hmatch with
            | stop hitems => exact ⟨rfl, hitems⟩

theorem search_iff (regex : Regex) (atStart : Bool) (haystack : List Char) :
    search regex atStart haystack = true ↔
      ∃ before rest, haystack = before ++ rest ∧
        MatchesFrom regex (atStart && before.isEmpty) rest := by
  induction haystack generalizing atStart with
  | nil =>
      rw [search, matchHere_iff]
      constructor
      · intro hmatch
        exact ⟨[], [], rfl, by simpa using hmatch⟩
      · rintro ⟨before, rest, happend, hmatch⟩
        obtain ⟨rfl, rfl⟩ := List.append_eq_nil_iff.mp happend.symm
        simpa using hmatch
  | cons c others ih =>
      rw [search, Bool.or_eq_true, matchHere_iff, ih]
      constructor
      · rintro (hmatch | ⟨before, rest, rfl, hmatch⟩)
        · exact ⟨[], c :: others, rfl, by simpa using hmatch⟩
        · exact ⟨c :: before, rest, rfl, by simpa using hmatch⟩
      · rintro ⟨before, rest, happend, hmatch⟩
        cases before with
        | nil =>
            left
            rw [List.nil_append] at happend
            simpa [happend] using hmatch
        | cons d before =>
            obtain ⟨rfl, rfl⟩ := List.cons.inj happend
            exact .inr ⟨before, rest, rfl, by simpa using hmatch⟩

theorem search_true_iff (regex : Regex) (haystack : List Char) :
    search regex true haystack = true ↔ Regex.FoundIn regex haystack := by
  rw [search_iff]
  rfl

end Scuttled.Foundation
