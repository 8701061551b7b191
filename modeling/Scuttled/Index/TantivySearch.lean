import Mathlib.Data.List.Basic
import Scuttled.Index.Tantivy

/-!
# Searching the index on Tantivy

A search asks the library for the best thousand documents of the whole index and
drops those of other mailboxes afterwards.  What the library takes for a match
and how it ranks are parameters.
-/

namespace Scuttled.Tantivy

open Rust Foundation

/-! ## The library -/

/-- The text fields a query may look into. -/
inductive Field where
  | fromHeader
  | toHeader
  | subject
  | body
  deriving DecidableEq

def Field.value (document : Document) : Field → String
  | .fromHeader => document.fromHeader
  | .toHeader => document.toHeader
  | .subject => document.subject
  | .body => document.body

/-- The queries the index builds: two exact terms, or a text for the query parser. -/
inductive Query where
  | filedUnder (username mailbox : String)
  | parsed (fields : List Field) (text : String)

/-- A word without a meaning of its own to the query parser. -/
def PlainWord (text : String) : Prop :=
  text ≠ "" ∧ (∀ c ∈ text.toList, c.isAlphanum = true) ∧ text ∉ ["AND", "OR", "NOT", "IN"]

instance (text : String) : Decidable (PlainWord text) := inferInstanceAs (Decidable (_ ∧ _ ∧ _))

/-- The query parser and the tokenizers: a plain word is looked for in each of the
fields. -/
structure Analyzer where
  parseError : List Field → String → Option String
  matchesParsed : List Field → String → Document → Bool
  contains : String → String → Bool
  parseError_plain : ∀ fields text, PlainWord text → parseError fields text = none
  matchesParsed_plain : ∀ fields text document, PlainWord text →
    matchesParsed fields text document = fields.any fun field =>
      contains (field.value document) text

def Query.matches (analyzer : Analyzer) : Query → Document → Bool
  | .filedUnder username mailbox, document =>
      document.username == username && document.mailbox == mailbox
  | .parsed fields text, document => analyzer.matchesParsed fields text document

/-- The matching documents of an index, best first.  The scores may depend on the
whole index. -/
structure Ranking (analyzer : Analyzer) where
  rank : List Document → Query → List Document
  perm : ∀ documents query,
    (rank documents query).Perm (documents.filter (query.matches analyzer))

/-- `TopDocs::with_limit`. -/
def Ranking.topDocs {analyzer : Analyzer} (ranking : Ranking analyzer) (limit : Nat)
    (documents : List Document) (query : Query) : List Document :=
  (ranking.rank documents query).take limit

/-! ## `search` -/

/-- The limit `search` asks for. -/
def searchLimit : Nat := 1000

/-- The query for a search; the kinds that are not implemented have none. -/
def buildQuery (username mailbox : String) : SearchQuery → Option Query
  | .all => some (.filedUnder username mailbox)
  | .fromHeader text => some (.parsed [.fromHeader] text)
  | .subject text => some (.parsed [.subject] text)
  | .text text => some (.parsed [.fromHeader, .toHeader, .subject, .body] text)
  | _ => none

/-- The error of the query parser, if it runs. -/
def Query.parseError (analyzer : Analyzer) : Query → Option String
  | .filedUnder _ _ => none
  | .parsed fields text => analyzer.parseError fields text

def search {analyzer : Analyzer} (ranking : Ranking analyzer) (documents : List Document)
    (username mailbox : String) (query : SearchQuery) : Result (List String) :=
  match buildQuery username mailbox query with
  | none => .ok []
  | some searchQuery =>
      match searchQuery.parseError analyzer with
      | some error => .error (.index ("Query parse error: " ++ error))
      | none =>
          .ok (((ranking.topDocs searchLimit documents searchQuery).filter fun document =>
            document.username == username && document.mailbox == mailbox).map Document.path)

/-! ## What a search should return -/

/-- The kinds of queries that are implemented, their text a plain word. -/
def Implemented : SearchQuery → Prop
  | .all => True
  | .fromHeader text => PlainWord text
  | .subject text => PlainWord text
  | .text text => PlainWord text
  | _ => False

def Satisfies (analyzer : Analyzer) (document : Document) : SearchQuery → Prop
  | .all => True
  | .fromHeader text => analyzer.contains document.fromHeader text = true
  | .subject text => analyzer.contains document.subject text = true
  | .text text => ∃ field : Field, analyzer.contains (field.value document) text = true
  | _ => False

/-- The document is filed under the mailbox. -/
def Document.In (document : Document) (username mailbox : String) : Prop :=
  document.username = username ∧ document.mailbox = mailbox

instance (document : Document) (username mailbox : String) :
    Decidable (document.In username mailbox) := inferInstanceAs (Decidable (_ ∧ _))

/-- The path belongs to a document of the mailbox that matches. -/
def Expected (analyzer : Analyzer) (documents : List Document) (username mailbox : String)
    (query : SearchQuery) (path : String) : Prop :=
  ∃ document ∈ documents, document.In username mailbox ∧ Satisfies analyzer document query ∧
    document.path = path

/-- The search answers with exactly the paths expected, however documents are ranked. -/
def SearchExact (analyzer : Analyzer) (documents : List Document) (username mailbox : String)
    (query : SearchQuery) : Prop :=
  ∀ ranking : Ranking analyzer, ∃ paths,
    search ranking documents username mailbox query = .ok paths ∧
      ∀ path, path ∈ paths ↔ Expected analyzer documents username mailbox query path

/-- The documents that match what the library is asked, apart from those of the
mailbox with the path. -/
def competitors (analyzer : Analyzer) (documents : List Document) (username mailbox : String)
    (query : Query) (path : String) : List Document :=
  (documents.filter (query.matches analyzer)).filter fun document =>
    !decide (document.In username mailbox ∧ document.path = path)

/-! ## When a search is exact -/

section Exact

variable {analyzer : Analyzer} {documents : List Document} {username mailbox : String}
  {query : SearchQuery}

/-- An implemented query is built without an error, and matches in the mailbox what
satisfies it. -/
theorem exists_buildQuery (analyzer : Analyzer) (username mailbox : String)
    (hquery : Implemented query) :
    ∃ searchQuery, buildQuery username mailbox query = some searchQuery ∧
      searchQuery.parseError analyzer = none ∧
      ∀ document : Document, document.In username mailbox →
        (searchQuery.matches analyzer document = true ↔ Satisfies analyzer document query) := by
  have hparsed (fields : List Field) (text : String) (hplain : PlainWord text) (document : Document) :
      (Query.parsed fields text).matches analyzer document = true ↔
        ∃ field ∈ fields, analyzer.contains (field.value document) text = true := by
    rw [Query.matches, analyzer.matchesParsed_plain fields text document hplain, List.any_eq_true]
  cases query with
  | all =>
      refine ⟨.filedUnder username mailbox, rfl, rfl, fun document hin => ?_⟩
      simp [Query.matches, Satisfies, hin.1, hin.2]
  | fromHeader text =>
      refine ⟨_, rfl, analyzer.parseError_plain _ text hquery, fun document _ => ?_⟩
      rw [hparsed _ _ hquery]
      simp [Satisfies, Field.value]
  | subject text =>
      refine ⟨_, rfl, analyzer.parseError_plain _ text hquery, fun document _ => ?_⟩
      rw [hparsed _ _ hquery]
      simp [Satisfies, Field.value]
  | text text =>
      refine ⟨_, rfl, analyzer.parseError_plain _ text hquery, fun document _ => ?_⟩
      rw [hparsed _ _ hquery, Satisfies]
      constructor
      · rintro ⟨field, -, hcontains⟩
        exact ⟨field, hcontains⟩
      · rintro ⟨field, hcontains⟩
        exact ⟨field, by cases field <;> simp, hcontains⟩
  | _ => exact hquery.elim

/-- The ranking that puts what passes a test before the rest. -/
def Ranking.preferring (analyzer : Analyzer) (prefers : Document → Bool) : Ranking analyzer where
  rank documents query :=
    (documents.filter (query.matches analyzer)).filter prefers ++
      (documents.filter (query.matches analyzer)).filter fun document => !prefers document
  perm _ _ := List.filter_append_perm prefers _

theorem topDocs_preferring {prefers : Document → Bool} {limit : Nat} {searchQuery : Query}
    (hroom : limit ≤ ((documents.filter (searchQuery.matches analyzer)).filter prefers).length) :
    (Ranking.preferring analyzer prefers).topDocs limit documents searchQuery =
      ((documents.filter (searchQuery.matches analyzer)).filter prefers).take limit :=
  List.take_append_of_le_length hroom

theorem search_eq {ranking : Ranking analyzer} {searchQuery : Query}
    (hbuild : buildQuery username mailbox query = some searchQuery)
    (hparse : searchQuery.parseError analyzer = none) :
    search ranking documents username mailbox query =
      .ok (((ranking.topDocs searchLimit documents searchQuery).filter fun document =>
        document.username == username && document.mailbox == mailbox).map Document.path) := by
  unfold search
  simp only [hbuild, hparse]

theorem mem_answer_iff {best : List Document} {path : String} :
    path ∈ (best.filter fun document =>
        document.username == username && document.mailbox == mailbox).map Document.path ↔
      ∃ document ∈ best, document.In username mailbox ∧ document.path = path := by
  simp [Document.In, and_assoc]

/-- Among the best there is a document of the mailbox with the path, unless others
fill the places. -/
theorem exists_in_topDocs {ranking : Ranking analyzer} {searchQuery : Query} {document : Document}
    (hdocument : document ∈ documents) (hin : document.In username mailbox)
    (hmatches : searchQuery.matches analyzer document = true)
    (hcompetitors : (competitors analyzer documents username mailbox searchQuery
      document.path).length < searchLimit) :
    ∃ other ∈ ranking.topDocs searchLimit documents searchQuery,
      other.In username mailbox ∧ other.path = document.path := by
  by_contra hnone
  have hperm := ranking.perm documents searchQuery
  rw [competitors, ← (hperm.filter _).length_eq] at hcompetitors
  rw [Ranking.topDocs] at hnone
  generalize ranking.rank documents searchQuery = ranked at hperm hcompetitors hnone
  have hothers : ∀ other ∈ ranked.take searchLimit,
      (!decide (other.In username mailbox ∧ other.path = document.path)) = true := by
    intro other hother
    rw [Bool.not_eq_true', decide_eq_false_iff_not]
    exact fun hfound => hnone ⟨other, hother, hfound⟩
  have hlength : (ranked.take searchLimit).length < searchLimit := by
    have hsublist := (List.take_sublist searchLimit ranked).filter fun other =>
      !decide (other.In username mailbox ∧ other.path = document.path)
    rw [List.filter_eq_self.mpr hothers] at hsublist
    exact Nat.lt_of_le_of_lt hsublist.length_le hcompetitors
  have hall : ranked.take searchLimit = ranked := by
    apply List.take_of_length_le
    rw [List.length_take] at hlength
    omega
  rw [hall] at hnone
  have hranked : document ∈ ranked := hperm.mem_iff.mpr (List.mem_filter.mpr ⟨hdocument, hmatches⟩)
  exact hnone ⟨document, hranked, hin, rfl⟩

/--
Full-text search.  A search of an implemented kind answers with exactly the
paths of the matching documents of the mailbox, however the library ranks,
exactly if for every such document fewer than a thousand documents compete with
it: they match what the library is asked, and are not of the mailbox with the
same path.
-/
theorem search_exact_iff (hquery : Implemented query) :
    SearchExact analyzer documents username mailbox query ↔
      ∀ document ∈ documents, document.In username mailbox → Satisfies analyzer document query →
        ∀ searchQuery, buildQuery username mailbox query = some searchQuery →
          (competitors analyzer documents username mailbox searchQuery document.path).length <
            searchLimit := by
  obtain ⟨searchQuery, hbuild, hparse, hsatisfies⟩ :=
    exists_buildQuery analyzer username mailbox hquery
  constructor
  · intro hexact document hdocument hin hsatisfied searchQuery' hbuild'
    obtain rfl := Option.some.inj (hbuild.symm.trans hbuild')
    by_contra hfull
    have hroom : searchLimit ≤ (competitors analyzer documents username mailbox searchQuery
      document.path).length := Nat.le_of_not_lt hfull
    -- the library may rank all that competes with the document before it
    obtain ⟨paths, hsearch, hpaths⟩ := hexact (Ranking.preferring analyzer fun other =>
      !decide (other.In username mailbox ∧ other.path = document.path))
    rw [search_eq hbuild hparse] at hsearch
    obtain rfl := Except.ok.inj hsearch
    have hanswer := (hpaths document.path).mpr ⟨document, hdocument, hin, hsatisfied, rfl⟩
    rw [mem_answer_iff] at hanswer
    obtain ⟨other, hbest, hother⟩ := hanswer
    rw [topDocs_preferring hroom] at hbest
    have hprefers := (List.mem_filter.mp (List.mem_of_mem_take hbest)).2
    simp [hother] at hprefers
  · intro hroom ranking
    refine ⟨_, search_eq hbuild hparse, fun path => ?_⟩
    rw [mem_answer_iff]
    constructor
    · rintro ⟨document, hbest, hin, rfl⟩
      have hmem := (ranking.perm documents searchQuery).subset (List.mem_of_mem_take hbest)
      obtain ⟨hdocument, hmatches⟩ := List.mem_filter.mp hmem
      exact ⟨document, hdocument, hin, (hsatisfies document hin).mp hmatches, rfl⟩
    · rintro ⟨document, hdocument, hin, hsatisfied, rfl⟩
      exact exists_in_topDocs hdocument hin ((hsatisfies document hin).mpr hsatisfied)
        (hroom document hdocument hin hsatisfied searchQuery hbuild)

theorem expected_of_others {others : List Document}
    (hothers : ∀ document ∈ others, ¬ document.In username mailbox) (path : String) :
    Expected analyzer (documents ++ others) username mailbox query path ↔
      Expected analyzer documents username mailbox query path := by
  constructor
  · rintro ⟨document, hdocument, hin, hsatisfied, hpath⟩
    rcases List.mem_append.mp hdocument with hmem | hmem
    · exact ⟨document, hmem, hin, hsatisfied, hpath⟩
    · exact absurd hin (hothers document hmem)
  · rintro ⟨document, hdocument, hin, hsatisfied, hpath⟩
    exact ⟨document, List.mem_append_left _ hdocument, hin, hsatisfied, hpath⟩

theorem search_isolated {others : List Document}
    (hothers : ∀ document ∈ others, ¬ document.In username mailbox)
    (hbefore : SearchExact analyzer documents username mailbox query)
    (hafter : SearchExact analyzer (documents ++ others) username mailbox query)
    (ranking ranking' : Ranking analyzer) :
    ∃ paths paths', search ranking documents username mailbox query = .ok paths ∧
      search ranking' (documents ++ others) username mailbox query = .ok paths' ∧
      ∀ path, path ∈ paths' ↔ path ∈ paths := by
  obtain ⟨paths, hsearch, hpaths⟩ := hbefore ranking
  obtain ⟨paths', hsearch', hpaths'⟩ := hafter ranking'
  refine ⟨paths, paths', hsearch, hsearch', fun path => ?_⟩
  rw [hpaths', hpaths, expected_of_others hothers]

end Exact

/-! ## A search among many -/

/-- The words of a text, by letters and digits, in lower case. -/
def wordsOf (text : String) : List String :=
  (text.toList.splitOnP fun c => !c.isAlphanum).map fun word =>
    String.ofList (word.map Char.toLower)

/-- A library that looks for whole words. -/
def Analyzer.words : Analyzer where
  parseError _ _ := none
  matchesParsed fields text document := fields.any fun field =>
    (wordsOf (field.value document)).contains (String.ofList (text.toList.map Char.toLower))
  contains value text := (wordsOf value).contains (String.ofList (text.toList.map Char.toLower))
  parseError_plain _ _ _ := rfl
  matchesParsed_plain _ _ _ _ := rfl

/-- A ranking that gives the shortest subjects the best score. -/
def Ranking.shortest (analyzer : Analyzer) : Ranking analyzer where
  rank documents query := (documents.filter (query.matches analyzer)).mergeSort fun first second =>
    (wordsOf first.subject).length ≤ (wordsOf second.subject).length
  perm _ _ := List.mergeSort_perm _ _

/-- A message with nothing but a subject. -/
def greeting (subject : String) (number : Nat) : IndexedMessage where
  id := ⟨BitVec.ofNat 128 number⟩
  uid := 1
  mailbox := "box"
  flags := []
  internalDate := 0
  size := 0
  fromHeader := ""
  toHeader := ""
  subject
  bodyPreview := ""

/-- The greetings one user has in a mailbox. -/
def greetings (username subject : String) (count : Nat) : List Document :=
  (List.range count).map fun number => Document.of username "box" (greeting subject number)

theorem matches_greeting {username subject : String} {count : Nat} {document : Document}
    (hdocument : document ∈ greetings username subject count)
    (hword : (wordsOf subject).contains "hello" = true) :
    (Query.parsed [.subject] "hello").matches .words document = true ∧
      document.In username "box" ∧ document.subject = subject := by
  obtain ⟨number, -, rfl⟩ := List.mem_map.mp hdocument
  have hlower : String.ofList ("hello".toList.map Char.toLower) = "hello" := by decide
  refine ⟨?_, ⟨rfl, rfl⟩, rfl⟩
  simpa [Query.matches, Analyzer.words, Field.value, Document.of, greeting, hlower] using hword

theorem search_greetings {documents : List Document} (username : String)
    (hdocuments : ∀ document ∈ documents,
      (Query.parsed [.subject] "hello").matches .words document = true)
    (hordered : documents.Pairwise fun first second =>
      (wordsOf first.subject).length ≤ (wordsOf second.subject).length) :
    search (.shortest .words) documents username "box" (.subject "hello") =
      .ok (((documents.take searchLimit).filter fun document =>
        document.username == username && document.mailbox == "box").map Document.path) := by
  have hbest : (Ranking.shortest .words).topDocs searchLimit documents
      (.parsed [.subject] "hello") = documents.take searchLimit := by
    simp only [Ranking.topDocs, Ranking.shortest, List.filter_eq_self.mpr hdocuments]
    rw [List.mergeSort_of_pairwise]
    simpa using hordered
  rw [search_eq rfl rfl, hbest]

/-- The law for a mailbox with one message. -/
theorem search_exact_iff_one :
    SearchExact .words (greetings "ann" "hello" 1) "ann" "box" (.subject "hello") := by
  have hquery : Implemented (.subject "hello") := show PlainWord "hello" by decide
  refine (search_exact_iff hquery).mpr ?_
  intro document hdocument hin hsatisfied searchQuery hbuild
  have hlength : (competitors .words (greetings "ann" "hello" 1) "ann" "box" searchQuery
      document.path).length ≤ (greetings "ann" "hello" 1).length :=
    (List.filter_sublist.trans List.filter_sublist).length_le
  exact Nat.lt_of_le_of_lt hlength (by decide)

/-- A thousand messages of another user keep a message from being found that scores lower. -/
theorem search_misses_message :
    let ann := greetings "ann" "hello there my friend" 1
    let bob := greetings "bob" "hello" 1000
    PlainWord "hello" ∧
      search (.shortest .words) ann "ann" "box" (.subject "hello") =
        .ok (ann.map Document.path) ∧
      search (.shortest .words) (bob ++ ann) "ann" "box" (.subject "hello") = .ok [] ∧
      ¬ SearchExact .words (bob ++ ann) "ann" "box" (.subject "hello") := by
  intro ann bob
  have hann (document : Document) (hdocument : document ∈ ann) :=
    matches_greeting hdocument (by decide)
  have hbob (document : Document) (hdocument : document ∈ bob) :=
    matches_greeting hdocument (by decide)
  have halone : search (.shortest .words) ann "ann" "box" (.subject "hello") =
      .ok (ann.map Document.path) := by
    rw [search_greetings "ann" (fun document hdocument => (hann document hdocument).1)
      (List.pairwise_singleton _ _)]
    rfl
  have hmissed : search (.shortest .words) (bob ++ ann) "ann" "box" (.subject "hello") =
      .ok [] := by
    have hall : ∀ document ∈ bob ++ ann,
        (Query.parsed [.subject] "hello").matches .words document = true := by
      intro document hdocument
      rcases List.mem_append.mp hdocument with hmem | hmem
      · exact (hbob document hmem).1
      · exact (hann document hmem).1
    have hordered : (bob ++ ann).Pairwise fun first second =>
        (wordsOf first.subject).length ≤ (wordsOf second.subject).length := by
      refine List.pairwise_append.mpr ⟨?_, List.pairwise_singleton _ _, ?_⟩
      · refine List.pairwise_of_forall_mem_list ?_
        intro first hfirst second hsecond
        rw [(hbob first hfirst).2.2, (hbob second hsecond).2.2]
      · intro first hfirst second hsecond
        rw [(hbob first hfirst).2.2, (hann second hsecond).2.2]
        decide
    have hlength : bob.length = searchLimit := by simp [bob, greetings, searchLimit]
    have hnone : bob.filter (fun document =>
        document.username == "ann" && document.mailbox == "box") = [] := by
      rw [List.filter_eq_nil_iff]
      intro document hdocument
      simp [(hbob document hdocument).2.1.1]
    rw [search_greetings "ann" hall hordered, List.take_left' hlength, hnone]
    rfl
  refine ⟨by decide, halone, hmissed, fun hexact => ?_⟩
  obtain ⟨paths, hsearch, hpaths⟩ := hexact (.shortest .words)
  rw [hmissed] at hsearch
  obtain rfl := Except.ok.inj hsearch
  obtain ⟨document, hdocument⟩ : ∃ document, document ∈ ann :=
    ⟨_, List.mem_map_of_mem (List.mem_range.mpr Nat.zero_lt_one)⟩
  have hsatisfied : Satisfies .words document (.subject "hello") := by
    have hmatches := (hann document hdocument).1
    rw [Query.matches, Analyzer.words.matchesParsed_plain _ _ _ (by decide)] at hmatches
    simpa [Satisfies, Field.value] using hmatches
  have hexpected := (hpaths document.path).mpr
    ⟨document, List.mem_append_right _ hdocument, (hann document hdocument).2.1, hsatisfied, rfl⟩
  cases hexpected

end Scuttled.Tantivy
