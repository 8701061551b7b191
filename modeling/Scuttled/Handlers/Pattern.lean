import Scuttled.Foundation.Regex
import Scuttled.Mailboxes.Memory

/-!
# LIST patterns

A pattern is turned into one of five filters by tests on its text, and each
filter is evaluated in its own way.  All five agree with one wildcard relation
on the names a registry can hold.
-/

namespace Scuttled

open Rust Foundation

/-! ## From a pattern to a filter -/

/-- What `imap_pattern_to_regex` appends for one character of the pattern. -/
def imapPatternPiece (ch : Char) : List Char :=
  match ch with
  | '*' => ['.', '*']
  | '%' => ['[', '^', '/', ']', '*']
  | '.' | '+' | '?' | '^' | '$' | '(' | ')' | '[' | ']' | '{' | '}' | '|' | '\\' => ['\\', ch]
  | _ => [ch]

def imapPatternToRegex (pattern : String) : String :=
  String.ofList ('^' :: pattern.toList.flatMap imapPatternPiece ++ ['$'])

def patternToFilter (pattern : String) : MailboxFilter :=
  let start := String.ofList pattern.toList.dropLast
  let ending := String.ofList pattern.toList.tail
  if pattern == "*" then .all
  else if !contains '*' pattern && !contains '%' pattern then .exact pattern
  else if endsWith pattern "*" && !contains '*' start && !contains '%' pattern then
    .withPrefix start
  else if startsWith pattern "*" && !contains '*' ending && !contains '%' pattern then
    .withSuffix ending
  else .regex (imapPatternToRegex pattern)

example : patternToFilter "Test/*" = .withPrefix "Test/" := by decide

example : patternToFilter "a*b%" = .regex "^a.*b[^/]*$" := by decide

/-! ## The wildcard relation -/

/-- `*` stands for any text, `%` for any text without `/`, and every other
character for itself. -/
inductive WildcardMatch : List Char → List Char → Prop where
  | nil : WildcardMatch [] []
  | star {pattern name : List Char} (run : List Char) :
      WildcardMatch pattern name → WildcardMatch ('*' :: pattern) (run ++ name)
  | percent {pattern name run : List Char} :
      '/' ∉ run → WildcardMatch pattern name → WildcardMatch ('%' :: pattern) (run ++ name)
  | literal {pattern name : List Char} {c : Char} :
      c ≠ '*' → c ≠ '%' → WildcardMatch pattern name →
      WildcardMatch (c :: pattern) (c :: name)

/-- A text with neither wildcard in it. -/
def WildcardFree (pattern : List Char) : Prop := '*' ∉ pattern ∧ '%' ∉ pattern

/-- The names a pattern lists: those it matches, and every spelling of INBOX
for a wildcard-free spelling of INBOX. -/
def Lists (pattern name : String) : Prop :=
  WildcardMatch pattern.toList name.toList ∨
    (WildcardFree pattern.toList ∧ eqIgnoreAsciiCase pattern "INBOX" = true ∧
      eqIgnoreAsciiCase name "INBOX" = true)

theorem wildcardMatch_nil_iff {name : List Char} : WildcardMatch [] name ↔ name = [] := by
  constructor
  · intro hmatch
    cases hmatch
    rfl
  · rintro rfl
    exact .nil

theorem wildcardMatch_star_iff {pattern name : List Char} :
    WildcardMatch ('*' :: pattern) name ↔
      ∃ run rest, name = run ++ rest ∧ WildcardMatch pattern rest := by
  constructor
  · intro hmatch
    cases hmatch with
    | star run hrest => exact ⟨run, _, rfl, hrest⟩
    | literal hstar _ _ => exact absurd rfl hstar
  · rintro ⟨run, rest, rfl, hrest⟩
    exact .star run hrest

theorem wildcardMatch_percent_iff {pattern name : List Char} :
    WildcardMatch ('%' :: pattern) name ↔
      ∃ run rest, name = run ++ rest ∧ '/' ∉ run ∧ WildcardMatch pattern rest := by
  constructor
  · intro hmatch
    cases hmatch with
    | percent hrun hrest => exact ⟨_, _, rfl, hrun, hrest⟩
    | literal _ hpercent _ => exact absurd rfl hpercent
  · rintro ⟨run, rest, rfl, hrun, hrest⟩
    exact .percent hrun hrest

theorem wildcardMatch_literal_iff {pattern name : List Char} {c : Char} (hstar : c ≠ '*')
    (hpercent : c ≠ '%') :
    WildcardMatch (c :: pattern) name ↔
      ∃ rest, name = c :: rest ∧ WildcardMatch pattern rest := by
  constructor
  · intro hmatch
    cases hmatch with
    | star _ _ => exact absurd rfl hstar
    | percent _ _ => exact absurd rfl hpercent
    | literal _ _ hrest => exact ⟨_, rfl, hrest⟩
  · rintro ⟨rest, rfl, hrest⟩
    exact .literal hstar hpercent hrest

theorem wildcardMatch_append_iff {start pattern name : List Char}
    (hstart : WildcardFree start) :
    WildcardMatch (start ++ pattern) name ↔
      ∃ rest, name = start ++ rest ∧ WildcardMatch pattern rest := by
  induction start generalizing name with
  | nil => simp
  | cons c start ih =>
      obtain ⟨hstar, hpercent⟩ := hstart
      rw [List.mem_cons, not_or] at hstar hpercent
      have ih' (rest : List Char) := @ih rest ⟨hstar.2, hpercent.2⟩
      rw [List.cons_append, wildcardMatch_literal_iff (Ne.symm hstar.1) (Ne.symm hpercent.1)]
      constructor
      · rintro ⟨rest, rfl, hrest⟩
        obtain ⟨later, rfl, hlater⟩ := (ih' rest).mp hrest
        exact ⟨later, rfl, hlater⟩
      · rintro ⟨later, rfl, hlater⟩
        exact ⟨start ++ later, rfl, (ih' _).mpr ⟨later, rfl, hlater⟩⟩

theorem wildcardMatch_free_iff {pattern name : List Char} (hpattern : WildcardFree pattern) :
    WildcardMatch pattern name ↔ name = pattern := by
  have happend : WildcardMatch (pattern ++ []) name ↔
      ∃ rest, name = pattern ++ rest ∧ WildcardMatch [] rest := wildcardMatch_append_iff hpattern
  simpa [wildcardMatch_nil_iff] using happend

/-! ## The regular expression of a pattern -/

/-- The item a character of a pattern denotes. -/
def imapPatternItem (ch : Char) : RegexItem :=
  if ch = '*' then .many .notLineFeed
  else if ch = '%' then .many (.except '/')
  else .one (.exactly ch)

theorem spells_imapPatternPiece {ch : Char} {text : List Char} {items : Regex}
    (hspells : Spells text items) :
    Spells (imapPatternPiece ch ++ text) (imapPatternItem ch :: items) := by
  unfold imapPatternPiece imapPatternItem
  split
  · exact .many .dot hspells
  · exact .many (.negated (by decide)) hspells
  all_goals try exact .one (.escaped (by decide)) hspells
  rename_i hstar hpercent hdot hplus hquestion hcaret hdollar hopen hclose hbracket hbracket'
    hbrace hbrace' hbar hbackslash
  rw [if_neg hstar, if_neg hpercent]
  refine .one (.literal ?_) hspells
  simp only [isMetaCharacter, List.mem_cons, List.not_mem_nil, or_false, decide_eq_false_iff_not]
  tauto

theorem spells_imapPatternToRegex (pattern : String) :
    Spells (imapPatternToRegex pattern).toList
      (.start :: pattern.toList.map imapPatternItem ++ [.stop]) := by
  rw [imapPatternToRegex, String.toList_ofList]
  suffices hpieces : ∀ chars : List Char,
      Spells (chars.flatMap imapPatternPiece ++ ['$']) (chars.map imapPatternItem ++ [.stop]) from
    .start (hpieces pattern.toList)
  intro chars
  induction chars with
  | nil => exact .stop .nil
  | cons ch rest ih =>
      rw [List.flatMap_cons, List.append_assoc, List.map_cons, List.cons_append]
      exact spells_imapPatternPiece ih

/-- On names without a line feed the expression means what the pattern means. -/
theorem matchesFrom_imapPattern_iff {pattern name : List Char} {atStart : Bool}
    (hname : '\n' ∉ name) :
    MatchesFrom (pattern.map imapPatternItem ++ [.stop]) atStart name ↔
      WildcardMatch pattern name := by
  induction pattern generalizing name atStart with
  | nil => rw [List.map_nil, List.nil_append, matchesFrom_stop_iff, wildcardMatch_nil_iff]
  | cons ch pattern ih =>
      rw [List.map_cons, List.cons_append, imapPatternItem]
      split
      · rename_i hstar
        subst hstar
        rw [matchesFrom_many_iff, wildcardMatch_star_iff]
        constructor
        · rintro ⟨run, rest, rfl, -, hrest⟩
          rw [List.mem_append, not_or] at hname
          exact ⟨run, rest, rfl, (ih hname.2).mp hrest⟩
        · rintro ⟨run, rest, rfl, hrest⟩
          rw [List.mem_append, not_or] at hname
          refine ⟨run, rest, rfl, fun c hc => ?_, (ih hname.2).mpr hrest⟩
          have hfeed : c ≠ '\n' := fun hfeed => hname.1 (hfeed ▸ hc)
          simpa [CharClass.holds] using hfeed
      · split
        · rename_i hpercent
          subst hpercent
          rw [matchesFrom_many_iff, wildcardMatch_percent_iff]
          constructor
          · rintro ⟨run, rest, rfl, hrun, hrest⟩
            rw [List.mem_append, not_or] at hname
            refine ⟨run, rest, rfl, fun hslash => ?_, (ih hname.2).mp hrest⟩
            exact absurd (hrun _ hslash) (by decide)
          · rintro ⟨run, rest, rfl, hrun, hrest⟩
            rw [List.mem_append, not_or] at hname
            refine ⟨run, rest, rfl, fun c hc => ?_, (ih hname.2).mpr hrest⟩
            have hslash : c ≠ '/' := fun hslash => hrun (hslash ▸ hc)
            simpa [CharClass.holds] using hslash
        · rename_i hstar hpercent
          rw [matchesFrom_one_iff, wildcardMatch_literal_iff hstar hpercent]
          constructor
          · rintro ⟨c, rest, rfl, hc, hrest⟩
            rw [List.mem_cons, not_or] at hname
            obtain rfl : c = ch := by simpa [CharClass.holds] using hc
            exact ⟨rest, rfl, (ih hname.2).mp hrest⟩
          · rintro ⟨rest, rfl, hrest⟩
            rw [List.mem_cons, not_or] at hname
            exact ⟨ch, rest, rfl, by simp [CharClass.holds], (ih hname.2).mpr hrest⟩

/-! ## The engine -/

/-- What the regular-expression engine documents: a compiled text that spells
an expression is found in a haystack exactly where that expression is. -/
def RegexEngine.Documented (engine : RegexEngine) : Prop :=
  ∀ text regex compiled, Spells text.toList regex → engine.new text = some compiled →
    ∀ haystack, engine.isMatch compiled haystack = true ↔ Regex.FoundIn regex haystack.toList

/-- An engine for the expressions this syntax covers. -/
def RegexEngine.searching : RegexEngine where
  Compiled := Regex
  new text := parseRegex text.toList
  isMatch regex haystack := search regex true haystack.toList

theorem RegexEngine.searching_documented : RegexEngine.searching.Documented := by
  intro text regex compiled hspells hnew haystack
  have hcompiled : some regex = some compiled := (parseRegex_of_spells hspells).symm.trans hnew
  obtain rfl := Option.some.inj hcompiled
  exact search_true_iff regex haystack.toList

theorem RegexEngine.searching_new (pattern : String) :
    (RegexEngine.searching.new (imapPatternToRegex pattern)).isSome = true := by
  have hparse := parseRegex_of_spells (spells_imapPatternToRegex pattern)
  simp only [RegexEngine.searching, hparse, Option.isSome_some]

/-! ## What each filter accepts -/

section Filters

variable {pattern name : String}

theorem contains_eq_false_iff {c : Char} {s : String} :
    (!contains c s) = true ↔ c ∉ s.toList := by
  simp [contains]

theorem wildcardMatch_all_iff : WildcardMatch ['*'] name.toList ↔ True := by
  rw [wildcardMatch_star_iff]
  simp only [iff_true]
  exact ⟨name.toList, [], by simp, .nil⟩

theorem lists_free_iff (hfree : WildcardFree pattern.toList) :
    (if eqIgnoreAsciiCase name "INBOX" && eqIgnoreAsciiCase pattern "INBOX" then true
      else name == pattern) = true ↔ Lists pattern name := by
  rw [Lists, wildcardMatch_free_iff hfree, String.toList_inj]
  simp only [hfree, true_and]
  split
  · rename_i hinbox
    rw [Bool.and_eq_true] at hinbox
    simp [hinbox]
  · rename_i hinbox
    rw [Bool.and_eq_true] at hinbox
    simp only [beq_iff_eq]
    tauto

theorem lists_iff_wildcardMatch (hwild : ¬ WildcardFree pattern.toList) :
    Lists pattern name ↔ WildcardMatch pattern.toList name.toList := by
  rw [Lists]
  tauto

theorem startsWith_iff_lists {start : List Char} (hpattern : pattern.toList = start ++ ['*'])
    (hfree : WildcardFree start) :
    startsWith name (String.ofList start) = true ↔ Lists pattern name := by
  have hwild : ¬ WildcardFree pattern.toList := fun hfree' => hfree'.1 (by simp [hpattern])
  rw [lists_iff_wildcardMatch hwild, hpattern, wildcardMatch_append_iff hfree, startsWith,
    String.toList_ofList, List.isPrefixOf_iff_prefix]
  constructor
  · rintro ⟨rest, hname⟩
    exact ⟨rest, hname.symm, by simpa using WildcardMatch.star rest .nil⟩
  · rintro ⟨rest, hname, -⟩
    exact ⟨rest, hname.symm⟩

theorem endsWith_iff_lists {ending : List Char} (hpattern : pattern.toList = '*' :: ending)
    (hfree : WildcardFree ending) :
    endsWith name (String.ofList ending) = true ↔ Lists pattern name := by
  have hwild : ¬ WildcardFree pattern.toList := fun hfree' => hfree'.1 (by simp [hpattern])
  rw [lists_iff_wildcardMatch hwild, hpattern, wildcardMatch_star_iff, endsWith,
    String.toList_ofList, List.isSuffixOf_iff_suffix]
  constructor
  · rintro ⟨run, hname⟩
    exact ⟨run, ending, hname.symm, (wildcardMatch_free_iff hfree).mpr rfl⟩
  · rintro ⟨run, rest, hname, hrest⟩
    rw [(wildcardMatch_free_iff hfree).mp hrest] at hname
    exact ⟨run, hname.symm⟩

theorem isMatch_iff_lists {engine : RegexEngine} (hdocumented : engine.Documented)
    (hwild : ¬ WildcardFree pattern.toList) (hname : '\n' ∉ name.toList)
    {compiled : engine.Compiled} (hnew : engine.new (imapPatternToRegex pattern) = some compiled) :
    engine.isMatch compiled name = true ↔ Lists pattern name := by
  rw [hdocumented _ _ _ (spells_imapPatternToRegex pattern) hnew, List.cons_append,
    foundIn_start_iff, matchesFrom_imapPattern_iff hname, lists_iff_wildcardMatch hwild]

end Filters

/-- The answer of the registry to a pattern is the user's mailboxes whose names
pass one test, and the test is the listing relation. -/
theorem listMailboxes_eq_filter {engine : RegexEngine} (hdocumented : engine.Documented)
    (hcompiles : ∀ pattern, (engine.new (imapPatternToRegex pattern)).isSome = true)
    (order : HashOrder (String × String) MailboxInfo) (username pattern : String) :
    ∃ accepts : String → Bool,
      (∀ name, '\n' ∉ name.toList → (accepts name = true ↔ Lists pattern name)) ∧
      ∀ registry : InMemoryMailboxes,
        (InMemoryMailboxes.listMailboxes engine order username (patternToFilter pattern)
            registry).1 =
          .ok ((registry.iterateOf order username).filter fun info => accepts info.id.name) := by
  unfold patternToFilter
  simp only
  split
  · -- the pattern is a star alone
    rename_i hall
    rw [beq_iff_eq] at hall
    subst hall
    refine ⟨fun _ => true, fun name _ => ?_, fun registry => ?_⟩
    · rw [lists_iff_wildcardMatch (fun hfree => hfree.1 (by decide))]
      exact (wildcardMatch_all_iff.trans (by simp)).symm
    · simp [InMemoryMailboxes.listMailboxes]
  split
  · -- no wildcard
    rename_i hfree
    rw [Bool.and_eq_true, contains_eq_false_iff, contains_eq_false_iff] at hfree
    exact ⟨_, fun name _ => lists_free_iff hfree, fun registry => rfl⟩
  split
  · -- one star, at the end
    rename_i hstart
    simp only [Bool.and_eq_true, contains_eq_false_iff, String.toList_ofList] at hstart
    obtain ⟨⟨hends, hstar⟩, hpercent⟩ := hstart
    obtain ⟨start, hpattern⟩ : ∃ start, start ++ ['*'] = pattern.toList :=
      List.isSuffixOf_iff_suffix.mp hends
    rw [← hpattern] at hstar hpercent ⊢
    rw [List.dropLast_concat] at hstar ⊢
    have hfree : WildcardFree start :=
      ⟨hstar, fun hmem => hpercent (List.mem_append_left _ hmem)⟩
    exact ⟨_, fun name _ => startsWith_iff_lists hpattern.symm hfree, fun registry => rfl⟩
  split
  · -- one star, at the beginning
    rename_i hending
    simp only [Bool.and_eq_true, contains_eq_false_iff, String.toList_ofList] at hending
    obtain ⟨⟨hstarts, hstar⟩, hpercent⟩ := hending
    obtain ⟨ending, hpattern⟩ : ∃ ending, ['*'] ++ ending = pattern.toList :=
      List.isPrefixOf_iff_prefix.mp hstarts
    rw [← hpattern] at hstar hpercent ⊢
    rw [List.singleton_append, List.tail_cons] at hstar ⊢
    have hfree : WildcardFree ending :=
      ⟨hstar, fun hmem => hpercent (List.mem_append_right _ hmem)⟩
    exact ⟨_, fun name _ => endsWith_iff_lists hpattern.symm hfree, fun registry => rfl⟩
  · -- everything else goes through the engine
    rename_i hexact hstart hending
    obtain ⟨compiled, hnew⟩ := Option.isSome_iff_exists.mp (hcompiles pattern)
    have hwild : ¬ WildcardFree pattern.toList := by
      rw [Bool.and_eq_true, contains_eq_false_iff, contains_eq_false_iff] at hexact
      exact hexact
    refine ⟨fun name => engine.isMatch compiled name,
      fun name hname => isMatch_iff_lists hdocumented hwild hname hnew, fun registry => ?_⟩
    simp only [InMemoryMailboxes.listMailboxes, hnew]

theorem mem_iterateOf_iff {registry : InMemoryMailboxes} (hregistry : registry.state.WellFormed)
    {order : HashOrder (String × String) MailboxInfo} {username : String} {info : MailboxInfo} :
    info ∈ registry.iterateOf order username ↔
      registry.state.mailboxes.lookup (username, info.id.name) = some info := by
  rw [InMemoryMailboxes.iterateOf, List.mem_map]
  constructor
  · rintro ⟨⟨⟨user, name⟩, found⟩, hentry, rfl⟩
    rw [List.mem_filter, HashMap.mem_arrange_iff] at hentry
    obtain ⟨hlookup, huser⟩ := hentry
    obtain rfl : user = username := by simpa using huser
    rw [hregistry.id_of_lookup hlookup]
    exact hlookup
  · intro hlookup
    refine ⟨⟨(username, info.id.name), info⟩, ?_, rfl⟩
    rw [List.mem_filter, HashMap.mem_arrange_iff]
    exact ⟨hlookup, by simp⟩

theorem nodup_names_iterateOf {registry : InMemoryMailboxes}
    (hregistry : registry.state.WellFormed)
    (order : HashOrder (String × String) MailboxInfo) (username : String) :
    ((registry.iterateOf order username).map fun info => info.id.name).Nodup := by
  rw [InMemoryMailboxes.iterateOf, List.map_map]
  generalize hown : (order.arrange registry.iterations registry.state.mailboxes.entries).filter
    (fun entry => entry.1.1 == username) = own
  have hkeys : (own.map Sigma.fst).Nodup := by
    rw [← hown]
    exact HashMap.nodup_keys_arrange.sublist (List.filter_sublist.map _)
  refine List.Nodup.of_map (fun name => (username, name)) ?_
  rw [List.map_map]
  rwa [List.map_congr_left (g := Sigma.fst)]
  rintro ⟨⟨user, name⟩, info⟩ hentry
  rw [← hown, List.mem_filter, HashMap.mem_arrange_iff] at hentry
  obtain ⟨hlookup, huser⟩ := hentry
  obtain rfl : user = username := by simpa using huser
  simp [hregistry.id_of_lookup hlookup]

/-! ## LIST returns exactly the matching mailboxes -/

/-- A creation stores a name as the CREATE command does. -/
def WriteCommand.StoresToken : WriteCommand → Prop
  | .create _ name => IsToken name
  | _ => True

/-- Every stored name is a non-empty text without whitespace. -/
def MailboxState.StoresTokens (state : MailboxState) : Prop :=
  ∀ username name, (state.mailboxes.lookup (username, name)).isSome → IsToken name

theorem MailboxState.StoresTokens.writerStep {state : MailboxState}
    (hstate : state.WellFormed) (htokens : state.StoresTokens) {command : WriteCommand}
    (hcommand : command.StoresToken) : (Scuttled.writerStep state command).1.StoresTokens := by
  intro username name hstored
  rcases MailboxState.stored_of_writerStep hstate hstored with hbefore | rfl
  · exact htokens username name hbefore
  · exact hcommand

theorem MailboxState.storesTokens_final {commands : List WriteCommand}
    (hcommands : ∀ command ∈ commands, command.StoresToken) :
    (writerLoop.final .new commands).StoresTokens := by
  let Inv (state : MailboxState) : Prop := state.WellFormed ∧ state.StoresTokens
  have hstep (state : MailboxState) (command : WriteCommand) (hmem : command ∈ commands)
      (hstate : Inv state) : Inv (writerStep state command).1 :=
    ⟨hstate.1.writerStep command, hstate.2.writerStep hstate.1 (hcommands command hmem)⟩
  have hnew : Inv .new :=
    ⟨MailboxState.wellFormed_new, by simp [MailboxState.StoresTokens, MailboxState.new]⟩
  exact (Machine.final_invariant hstep hnew).2

theorem notMem_lineFeed_of_isToken {s : String} (hs : IsToken s) : '\n' ∉ s.toList :=
  fun hmem => absurd (hs.noWhitespace _ hmem) (by decide)

/--
The registry lists exactly the mailboxes a pattern lists.  Whatever the
registry went through, for a user and a pattern it answers with that user's
mailboxes whose names the pattern lists, each of them once.
-/
theorem listMailboxes_patternToFilter {engine : RegexEngine} (hdocumented : engine.Documented)
    (hcompiles : ∀ pattern, (engine.new (imapPatternToRegex pattern)).isSome = true)
    (order : HashOrder (String × String) MailboxInfo) (commands : List WriteCommand)
    (hcommands : ∀ command ∈ commands, command.StoresToken) (iterations : Nat)
    (username pattern : String) :
    ∃ infos, ((inMemoryMailboxes engine order).listMailboxes username (patternToFilter pattern)
          ⟨writerLoop.final .new commands, iterations⟩).1 = .ok infos ∧
      (infos.map fun info => info.id.name).Nodup ∧
      ∀ info, info ∈ infos ↔
        (writerLoop.final .new commands).mailboxes.lookup (username, info.id.name) = some info ∧
          Lists pattern info.id.name := by
  obtain ⟨accepts, haccepts, hanswer⟩ :=
    listMailboxes_eq_filter hdocumented hcompiles order username pattern
  have hwellFormed := MailboxState.wellFormed_final commands
  refine ⟨_, hanswer _, ?_, fun info => ?_⟩
  · exact (nodup_names_iterateOf hwellFormed order username).sublist (List.filter_sublist.map _)
  · rw [List.mem_filter, mem_iterateOf_iff hwellFormed]
    refine and_congr_right fun hlookup => haccepts _ ?_
    refine notMem_lineFeed_of_isToken ?_
    exact MailboxState.storesTokens_final hcommands username _ (by rw [hlookup]; rfl)

/-- The law after three creations and a deletion, for a pattern with both
wildcards. -/
theorem listMailboxes_patternToFilter_mixed :
    ∃ infos, ((inMemoryMailboxes .searching .listed).listMailboxes "ann" (patternToFilter "a%b*")
          ⟨writerLoop.final .new [.create "ann" "axb/c", .create "ann" "a/b",
            .create "bob" "ab", .delete "ann" "a/b"], 0⟩).1 = .ok infos ∧
      (infos.map fun info => info.id.name).Nodup ∧
      ∀ info, info ∈ infos ↔
        (writerLoop.final .new [.create "ann" "axb/c", .create "ann" "a/b",
            .create "bob" "ab", .delete "ann" "a/b"]).mailboxes.lookup ("ann", info.id.name) =
          some info ∧ Lists "a%b*" info.id.name := by
  refine listMailboxes_patternToFilter RegexEngine.searching_documented
    RegexEngine.searching_new .listed _ ?_ 0 "ann" "a%b*"
  simp only [List.forall_mem_cons, List.not_mem_nil, false_implies, implies_true, and_true,
    WriteCommand.StoresToken]
  exact ⟨⟨by decide, by decide⟩, ⟨by decide, by decide⟩, ⟨by decide, by decide⟩⟩

end Scuttled
