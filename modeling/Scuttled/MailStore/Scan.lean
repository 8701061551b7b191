import Scuttled.MailStore.Bookkeeping
import Scuttled.Storage.FilesystemStore

/-!
# The scan and the live watch

A message file is announced by the scan that ends `handle_watch`, with the mailbox the
command names, or when it is created, with the mailbox its path names.
-/

namespace Scuttled

open Rust

/-! ## Watching a mailbox of the store -/

/-- The directories `handle_watch` makes unless they are there; making one may end with
an error after some of the directories above it. -/
def FileTree.makeMissing (outcome : String → Option (Nat × String)) :
    List String → FileTree → Result Unit × FileTree
  | [], tree => (.ok (), tree)
  | path :: rest, tree =>
      if tree.tryExists path then makeMissing outcome rest tree
      else
        match tree.createDirAll (ancestors (resolve path) ++ [resolve path]) (outcome path) with
        | (.error failure, tree) => (.error failure, tree)
        | (.ok (), tree) => makeMissing outcome rest tree

/-- What comes from outside when a mailbox is watched. -/
structure WatchEnv extends WatcherEnv where
  /-- What fails of making a directory. -/
  makeDirectory : String → Option (Nat × String)
  /-- What fails of `watch`. -/
  notify : Option String
  /-- `read_dir`: the names in a directory, in some order. -/
  readDir : FileTree → String → Result (List String)

/-- The files when the scan begins. -/
def WatchEnv.scannedTree (env : WatchEnv) (root username mailbox : String) (tree : FileTree) :
    FileTree :=
  (tree.makeMissing env.makeDirectory (watchDirectories root username mailbox)).2

/-- How the calls of `handle_watch` end on these files. -/
def WatchEnv.calls (env : WatchEnv) (root username mailbox : String) (tree : FileTree) :
    WatchCalls where
  directories := (tree.makeMissing env.makeDirectory (watchDirectories root username mailbox)).1
  notify := env.notify
  scan :=
    let scanned := env.scannedTree root username mailbox tree
    scanExistingMessages env.toWatcherEnv scanned root (env.readDir scanned) username mailbox

/-- The directories of a mailbox are listed: each file once, and all of them. -/
structure ListsFiles (tree : FileTree) (readDir : String → Result (List String))
    (directories : List String) : Prop where
  nodup : ∀ directory ∈ directories, ∀ names, readDir directory = .ok names → names.Nodup
  single : ∀ directory ∈ directories, ∀ names, readDir directory = .ok names →
    ∀ name ∈ names, SingleComponent name
  all : ∀ directory ∈ directories, ∀ names, readDir directory = .ok names →
    ∀ name, SingleComponent name → tree.tryExists (join directory name) → name ∈ names

/-! ## What a scan goes through -/

section Scan

variable (env : WatcherEnv) (tree : FileTree) (root username mailbox : String)

/-- The paths in a directory, if it is there and can be listed. -/
def pathsIn (readDir : String → Result (List String)) (directory : String) : List String :=
  if !tree.tryExists directory then []
  else
    match readDir directory with
    | .error _ => []
    | .ok names => names.map (join directory)

/-- The paths a scan comes by, in order. -/
def scannedPaths (readDir : String → Result (List String)) : List String :=
  (watchDirectories root username mailbox).flatMap (pathsIn tree readDir)

/-- What a scan publishes for a path. -/
def scanPublishes (path : String) : List Event :=
  match scanEntry env tree root username mailbox path with
  | .error _ => []
  | .ok event => event.toList

end Scan

theorem publishEach_of_ok {α : Type} {scan : α → List Event × Result Unit} {items : List α}
    (hok : (publishEach scan items).2 = .ok ()) :
    (publishEach scan items).1 = items.flatMap (fun item => (scan item).1) ∧
      ∀ item ∈ items, (scan item).2 = .ok () := by
  induction items with
  | nil => exact ⟨rfl, by simp⟩
  | cons item rest ih =>
      rw [publishEach] at hok ⊢
      cases hitem : (scan item).2 with
      | error failure =>
          rw [hitem] at hok
          cases hok
      | ok =>
          rw [hitem] at hok
          obtain ⟨hevents, hrest⟩ := ih hok
          exact ⟨congrArg ((scan item).1 ++ ·) hevents, List.forall_mem_cons.mpr ⟨hitem, hrest⟩⟩

section Succeeded

variable {env : WatcherEnv} {tree : FileTree} {root username mailbox : String}
  {readDir : String → Result (List String)}

theorem publishEach_scanEntry_of_ok {directory : String} {names : List String}
    (hok : (publishEach (fun name =>
        match scanEntry env tree root username mailbox (join directory name) with
        | .error error => ([], .error error)
        | .ok event => (event.toList, .ok ())) names).2 = .ok ()) :
    (publishEach (fun name =>
        match scanEntry env tree root username mailbox (join directory name) with
        | .error error => ([], .error error)
        | .ok event => (event.toList, .ok ())) names).1 =
      (names.map (join directory)).flatMap (scanPublishes env tree root username mailbox) := by
  rw [(publishEach_of_ok hok).1, List.flatMap_map]
  refine List.flatMap_congr fun name _ => ?_
  unfold scanPublishes
  cases scanEntry env tree root username mailbox (join directory name) <;> rfl

/-- A scan that succeeds has listed the directories, and published what each path in them
brings. -/
theorem scan_of_ok
    (hok : (scanExistingMessages env tree root readDir username mailbox).2 = .ok ()) :
    (scanExistingMessages env tree root readDir username mailbox).1 =
        (scannedPaths tree root username mailbox readDir).flatMap
          (scanPublishes env tree root username mailbox) ∧
      ∀ directory ∈ watchDirectories root username mailbox, tree.tryExists directory = true →
        ∃ names, readDir directory = .ok names := by
  unfold scanExistingMessages at hok ⊢
  dsimp only at hok ⊢
  obtain ⟨hevents, hall⟩ := publishEach_of_ok hok
  rw [hevents, scannedPaths, watchDirectories, List.flatMap_map, List.flatMap_assoc]
  constructor
  · refine List.flatMap_congr fun subdir hsubdir => ?_
    have hone := hall subdir hsubdir
    unfold pathsIn
    cases hexists : tree.tryExists (join (mailboxPath root username mailbox) subdir) with
    | false => rfl
    | true =>
        simp only [hexists, Bool.not_true, Bool.false_eq_true, if_false] at hone ⊢
        cases hread : readDir (join (mailboxPath root username mailbox) subdir) with
        | error failure => rfl
        | ok names =>
            rw [hread] at hone
            exact publishEach_scanEntry_of_ok hone
  · intro directory hdirectory hexists
    obtain ⟨subdir, hsubdir, rfl⟩ := List.mem_map.mp hdirectory
    have hone := hall subdir hsubdir
    rw [hexists] at hone
    cases hread : readDir (join (mailboxPath root username mailbox) subdir) with
    | error failure =>
        rw [hread] at hone
        cases hone
    | ok names => exact ⟨names, rfl⟩

theorem FileTree.tryExists_makeDirectories (directories : List Location) {tree : FileTree}
    {path : String} (hexists : tree.tryExists path = true) :
    (tree.makeDirectories directories).tryExists path = true := by
  have hsome : tree (resolve path) ≠ none := by
    intro hnone
    rw [FileTree.tryExists, hnone] at hexists
    cases hexists
  have hkept : tree.makeDirectories directories (resolve path) = tree (resolve path) :=
    if_neg fun hmade => hsome hmade.2
  rw [FileTree.tryExists, hkept]
  exact hexists

theorem FileTree.tryExists_makeMissing (outcome : String → Option (Nat × String))
    (paths : List String) {tree : FileTree} {path : String} (hexists : tree.tryExists path = true) :
    (tree.makeMissing outcome paths).2.tryExists path = true := by
  induction paths generalizing tree with
  | nil => exact hexists
  | cons first rest ih =>
      rw [FileTree.makeMissing]
      split
      · exact ih hexists
      · rcases tree.createDirAll_cases (ancestors (resolve first) ++ [resolve first])
          (outcome first) with ⟨failure, made, hfailed, ⟨reached, rfl⟩, -⟩ | ⟨hok, -⟩
        · rw [hfailed]
          exact tryExists_makeDirectories reached hexists
        · rw [hok]
          exact ih (tryExists_makeDirectories _ hexists)

theorem FileTree.tryExists_of_makeMissing {outcome : String → Option (Nat × String)}
    {paths : List String} {tree : FileTree} (hok : (tree.makeMissing outcome paths).1 = .ok ()) :
    ∀ path ∈ paths, (tree.makeMissing outcome paths).2.tryExists path = true := by
  induction paths generalizing tree with
  | nil => simp
  | cons first rest ih =>
      rw [FileTree.makeMissing] at hok ⊢
      rw [List.forall_mem_cons]
      split at hok
      · rename_i hexists
        rw [if_pos hexists]
        exact ⟨tryExists_makeMissing outcome rest hexists, ih hok⟩
      · rename_i hmissing
        rw [if_neg hmissing]
        rcases tree.createDirAll_cases (ancestors (resolve first) ++ [resolve first])
          (outcome first) with ⟨failure, made, hfailed, -⟩ | ⟨hmade, -⟩
        · rw [hfailed] at hok
          cases hok
        · rw [hmade] at hok ⊢
          refine ⟨tryExists_makeMissing outcome rest ?_, ih hok⟩
          unfold FileTree.tryExists FileTree.makeDirectories
          split
          · rfl
          · rename_i hthere
            cases hfirst : tree (resolve first) with
            | none => exact absurd ⟨by simp, hfirst⟩ hthere
            | some node => rfl

end Succeeded

/-! ## One message, announced twice -/

/-- The same message, but for the moment it is announced at. -/
def SameAnnouncement (created created' : CreatedMessage) : Prop :=
  { created with internalDate := 0 } = { created' with internalDate := 0 }

/-- The scan and the live watch announce a file once each, as a message of the mailbox,
and say the same of it. -/
structure AnnouncedAlike (env : WatcherEnv) (later : DateTime) (tree : FileTree)
    (root username mailbox subdir : String) (readDir : String → Result (List String))
    (path : String) (created created' : CreatedMessage) : Prop where
  /-- What the scan publishes is what each of its paths brings. -/
  scan : (scanExistingMessages env tree root readDir username mailbox).1 =
    (scannedPaths tree root username mailbox readDir).flatMap
      (scanPublishes env tree root username mailbox)
  once : (scannedPaths tree root username mailbox readDir).count path = 1
  scanned : scanPublishes env tree root username mailbox path = [.messageCreated created]
  live : (handleCreateEvent { env with now := later } tree root path).toList =
    [.messageCreated created']
  owner : created.username = username ∧ created.mailbox = mailbox
  owner' : created'.username = username ∧ created'.mailbox = mailbox
  same : SameAnnouncement created created'
  isNew : created.isNew = true ↔ subdir = "new"

section Announced

variable {env : WatcherEnv} {tree : FileTree} {root username mailbox subdir filename : String}
  {readDir : String → Result (List String)}

theorem nodup_map_join {directory : String} {names : List String} (hnodup : names.Nodup)
    (hsingle : ∀ name ∈ names, SingleComponent name) : (names.map (join directory)).Nodup := by
  refine List.Nodup.map_on (fun name hname name' hname' hsame => ?_) hnodup
  have hcomponents := congrArg components hsame
  rw [components_join _ (hsingle name hname), components_join _ (hsingle name' hname')]
    at hcomponents
  exact Component.normal.inj (List.singleton_inj.mp (List.append_cancel_left hcomponents))

theorem join_ne_of_subdir {base subdir subdir' name name' : String} (hsubdir : SingleComponent subdir)
    (hsubdir' : SingleComponent subdir') (hname : SingleComponent name)
    (hname' : SingleComponent name') (hne : subdir ≠ subdir') :
    join (join base subdir) name ≠ join (join base subdir') name' := by
  intro hsame
  have hcomponents := congrArg components hsame
  rw [components_join _ hname, components_join _ hname', components_join _ hsubdir,
    components_join _ hsubdir'] at hcomponents
  have hdirectory := (List.append_inj' hcomponents rfl).1
  exact hne (Component.normal.inj
    (List.singleton_inj.mp (List.append_cancel_left hdirectory)))

/-- A file in a directory of the mailbox is come by once. -/
theorem count_scannedPaths
    (hlists : ListsFiles tree readDir (watchDirectories root username mailbox))
    (hthere : ∀ directory ∈ watchDirectories root username mailbox, tree.tryExists directory = true)
    (hread : ∀ directory ∈ watchDirectories root username mailbox,
      ∃ names, readDir directory = .ok names)
    (hsubdir : subdir ∈ MaildirFormat.watchSubdirectories) (hfilename : SingleComponent filename)
    (hfile : tree.tryExists (messageFilePath root username mailbox subdir filename) = true) :
    (scannedPaths tree root username mailbox readDir).count
      (messageFilePath root username mailbox subdir filename) = 1 := by
  have hnew : SingleComponent "new" := by decide
  have hcur : SingleComponent "cur" := by decide
  have hmember (subdir : String) (hsubdir : subdir ∈ MaildirFormat.watchSubdirectories) :
      join (mailboxPath root username mailbox) subdir ∈ watchDirectories root username mailbox :=
    List.mem_map_of_mem hsubdir
  have hpaths (subdir : String) (hsubdir : subdir ∈ MaildirFormat.watchSubdirectories) :
      ∃ names, readDir (join (mailboxPath root username mailbox) subdir) = .ok names ∧
        pathsIn tree readDir (join (mailboxPath root username mailbox) subdir) =
          names.map (join (join (mailboxPath root username mailbox) subdir)) := by
    obtain ⟨names, hnames⟩ := hread _ (hmember subdir hsubdir)
    refine ⟨names, hnames, ?_⟩
    rw [pathsIn, hthere _ (hmember subdir hsubdir), hnames]
    rfl
  obtain ⟨news, hnews, hnewPaths⟩ := hpaths "new" (by decide)
  obtain ⟨curs, hcurs, hcurPaths⟩ := hpaths "cur" (by decide)
  have hscanned : scannedPaths tree root username mailbox readDir =
      news.map (join (join (mailboxPath root username mailbox) "new")) ++
        curs.map (join (join (mailboxPath root username mailbox) "cur")) := by
    rw [scannedPaths, watchDirectories, MaildirFormat.watchSubdirectories]
    simp only [List.map_cons, List.map_nil, List.flatMap_cons, List.flatMap_nil, List.append_nil,
      hnewPaths, hcurPaths]
  have hnewDir := hmember "new" (by decide)
  have hcurDir := hmember "cur" (by decide)
  rw [hscanned]
  apply List.count_eq_one_of_mem
  · rw [List.nodup_append]
    refine ⟨nodup_map_join (hlists.nodup _ hnewDir news hnews) (hlists.single _ hnewDir news hnews),
      nodup_map_join (hlists.nodup _ hcurDir curs hcurs) (hlists.single _ hcurDir curs hcurs), ?_⟩
    intro path hpath path' hpath'
    obtain ⟨name, hname, rfl⟩ := List.mem_map.mp hpath
    obtain ⟨name', hname', rfl⟩ := List.mem_map.mp hpath'
    exact join_ne_of_subdir hnew hcur (hlists.single _ hnewDir news hnews name hname)
      (hlists.single _ hcurDir curs hcurs name' hname') (by decide)
  · rw [List.mem_append]
    rcases List.mem_pair.mp hsubdir with rfl | rfl
    · exact .inl (List.mem_map_of_mem (hlists.all _ hnewDir news hnews filename hfilename hfile))
    · exact .inr (List.mem_map_of_mem (hlists.all _ hcurDir curs hcurs filename hfilename hfile))

theorem parseMessagePath_of_mailbox (root : String) (husername : SingleComponent username)
    (hmailbox : SingleComponent mailbox ∨ mailbox = "..")
    (hsubdir : SingleComponent subdir) (hfilename : SingleComponent filename) :
    MaildirFormat.parseMessagePath (messageFilePath root username mailbox subdir filename) root =
      (MaildirFormat.subdirIsNew subdir).map fun isNew =>
        { uniqueId := (MaildirFormat.splitFilename filename).1
          flags := (MaildirFormat.splitFilename filename).2
          isNew
          username
          mailbox } := by
  rcases hmailbox with hmailbox | rfl
  · exact parseMessagePath_messageFilePath root husername hmailbox hsubdir hfilename
  · have hbase : join root username ≠ "" := by
      intro hempty
      have hcomponents := components_join root husername
      rw [hempty] at hcomponents
      exact absurd hcomponents.symm (by simp [show components "" = [] from by decide])
    refine @parseMessagePath_of_asOsStr _ root subdir filename (.normal username) .parentDir ?_
    rw [messageFilePath, mailboxPath, components_join _ hfilename, components_join _ hsubdir,
      components_join_of_ne_empty hbase (by decide), components_join _ husername,
      show bodyComponents ".." = [.parentDir] from by decide]
    simp

end Announced

/--
The start-up scan and the live watch.  For every user with a plain name, every mailbox
that `handle_watch` succeeds for, whatever was there before and whatever might have
failed, and every mail in `new` or `cur` of it: both announce the mail once, as a
message of this mailbox, and say the same of it, exactly if the name of the mailbox is
one component of a path.
-/
theorem announcedAlike_iff (env : WatchEnv) (later : DateTime) (tree : FileTree)
    (root username mailbox : String) (husername : SingleComponent username)
    (state : WatcherState)
    (hwatched : (state.handleWatch root username mailbox
      (env.calls root username mailbox tree)).2.2 = .ok ())
    (hlists : ListsFiles (env.scannedTree root username mailbox tree)
      (env.readDir (env.scannedTree root username mailbox tree))
      (watchDirectories root username mailbox))
    (subdir : String) (hsubdir : subdir ∈ MaildirFormat.watchSubdirectories) (filename : String)
    (hfilename : SingleComponent filename) (content : Bytes) (mail : ParsedMail)
    (hread : (env.scannedTree root username mailbox tree).read
      (messageFilePath root username mailbox subdir filename) = .ok content)
    (hmail : env.parseMail content = some mail) :
    (∃ created created', AnnouncedAlike env.toWatcherEnv later
      (env.scannedTree root username mailbox tree) root username mailbox subdir
      (env.readDir (env.scannedTree root username mailbox tree))
      (messageFilePath root username mailbox subdir filename) created created') ↔
      SingleComponent mailbox ∨ mailbox = ".." := by
  constructor
  · rintro ⟨created, created', halike⟩
    have hlive : handleCreateEvent { env.toWatcherEnv with now := later }
        (env.scannedTree root username mailbox tree) root
        (messageFilePath root username mailbox subdir filename) =
          some (.messageCreated created') := by
      rw [← Option.toList_eq_singleton_iff]
      exact halike.live
    obtain ⟨parsed, _, _, hparsed, -, -, hcreated⟩ := handleCreateEvent_eq_some_iff.mp hlive
    have hmailbox : parsed.mailbox = mailbox := by
      rw [← halike.owner'.2, ← Event.messageCreated.inj hcreated]
      rfl
    rw [← hmailbox]
    exact mailbox_of_parseMessagePath hparsed
  · intro hmailbox
    obtain ⟨hmade, hscan⟩ : (env.calls root username mailbox tree).directories = .ok () ∧
        (env.calls root username mailbox tree).scan.2 = .ok () := by
      unfold WatcherState.handleWatch at hwatched
      dsimp only at hwatched
      split at hwatched
      · cases hwatched
      · split at hwatched
        · cases hwatched
        · exact ⟨‹_›, hwatched⟩
    have hthere := FileTree.tryExists_of_makeMissing hmade
    obtain ⟨hevents, hlisted⟩ := scan_of_ok hscan
    have hsingle : SingleComponent subdir := by
      rcases List.mem_pair.mp hsubdir with rfl | rfl <;> decide
    obtain ⟨parsed, hparsed, husername', hmailbox', hnew⟩ :
        ∃ parsed, MaildirFormat.parseMessagePath
            (messageFilePath root username mailbox subdir filename) root = some parsed ∧
          parsed.username = username ∧ parsed.mailbox = mailbox ∧
          (parsed.isNew = true ↔ subdir = "new") := by
      rw [parseMessagePath_of_mailbox root husername hmailbox hsingle hfilename]
      rcases List.mem_pair.mp hsubdir with rfl | rfl
      · exact ⟨_, rfl, rfl, rfl, by simp⟩
      · exact ⟨_, rfl, rfl, rfl, by simp⟩
    refine ⟨env.created username mailbox parsed content mail,
      { env.toWatcherEnv with now := later }.created parsed.username parsed.mailbox parsed content
        mail, hevents, ?_, ?_, ?_, ⟨rfl, rfl⟩, ⟨husername', hmailbox'⟩, ?_, hnew⟩
    · exact count_scannedPaths hlists hthere (fun directory hdirectory =>
        hlisted directory hdirectory (hthere directory hdirectory)) hsubdir hfilename
        (FileTree.tryExists_of_read hread)
    · rw [scanPublishes, scanEntry_eq_some_iff.mpr ⟨parsed, content, mail, hparsed, hread, hmail,
        rfl⟩]
      rfl
    · have hlive : handleCreateEvent { env.toWatcherEnv with now := later }
          (env.scannedTree root username mailbox tree) root
          (messageFilePath root username mailbox subdir filename) = some (.messageCreated _) :=
        handleCreateEvent_eq_some_iff.mpr ⟨parsed, content, mail, hparsed, hread, hmail, rfl⟩
      rw [hlive]
      rfl
    · rw [SameAnnouncement, husername', hmailbox']
      rfl

/-- An empty mail in `new` of a mailbox, and its directories. -/
def mailIn (directory : List String) : FileTree := fun location =>
  if location = ⟨true, 0, directory ++ ["new", "m1"]⟩ then some (.file [])
  else if location.absolute = true ∧ location.up = 0 ∧
      (location.names <+: directory ++ ["new"] ∨ location.names = directory ++ ["cur"]) then
    some .directory
  else none

/-- Nothing fails, and there is one mail in `new`. -/
def mailInNew (directory : String) : WatchEnv where
  toWatcherEnv := plainMail
  makeDirectory _ := none
  notify := none
  readDir _ path := .ok (if path = join directory "new" then ["m1"] else [])

/-- The law for a mailbox with a plain name. -/
theorem announcedAlike_iff_box :
    ∃ created created', AnnouncedAlike plainMail 1 (mailIn ["mail", "ann", "box"]) "/mail" "ann" "box"
      "new" ((mailInNew "/mail/ann/box").readDir (mailIn ["mail", "ann", "box"]))
      (messageFilePath "/mail" "ann" "box" "new" "m1") created created' := by
  have hdirectories : watchDirectories "/mail" "ann" "box" =
      ["/mail/ann/box/new", "/mail/ann/box/cur"] := by decide +kernel
  have hlocation (subdir name : String) (hsubdir : SingleComponent subdir)
      (hname : SingleComponent name) : resolve (join (join "/mail/ann/box" subdir) name) =
        ⟨true, 0, ["mail", "ann", "box", subdir, name]⟩ := by
    rw [resolve, components_join _ hname, components_join _ hsubdir,
      show components "/mail/ann/box" =
        [.rootDir, .normal "mail", .normal "ann", .normal "box"] from by decide]
    rfl
  have hlists : ListsFiles (mailIn ["mail", "ann", "box"])
      ((mailInNew "/mail/ann/box").readDir (mailIn ["mail", "ann", "box"]))
      (watchDirectories "/mail" "ann" "box") := by
    have hnames {directory : String}
        (hmem : directory ∈ watchDirectories "/mail" "ann" "box") {names : List String}
        (hread : (mailInNew "/mail/ann/box").readDir (mailIn ["mail", "ann", "box"]) directory =
          .ok names) :
        directory = "/mail/ann/box/new" ∧ names = ["m1"] ∨
          directory = "/mail/ann/box/cur" ∧ names = [] := by
      rw [hdirectories] at hmem
      rcases List.mem_pair.mp hmem with rfl | rfl
      · exact .inl ⟨rfl, (Except.ok.inj hread).symm⟩
      · exact .inr ⟨rfl, (Except.ok.inj hread).symm⟩
    constructor
    · intro directory hmem names hread
      rcases hnames hmem hread with ⟨-, rfl⟩ | ⟨-, rfl⟩ <;> simp
    · intro directory hmem names hread
      rcases hnames hmem hread with ⟨-, rfl⟩ | ⟨-, rfl⟩
      · simp [show SingleComponent "m1" from by decide]
      · simp
    · intro directory hmem names hread name hname hthere
      rcases hnames hmem hread with ⟨rfl, rfl⟩ | ⟨rfl, rfl⟩
      · have hnew := hlocation "new" name (by decide) hname
        rw [show join "/mail/ann/box" "new" = "/mail/ann/box/new" from by decide] at hnew
        rw [FileTree.tryExists, hnew, mailIn] at hthere
        simpa using hthere
      · have hcur := hlocation "cur" name (by decide) hname
        rw [show join "/mail/ann/box" "cur" = "/mail/ann/box/cur" from by decide] at hcur
        rw [FileTree.tryExists, hcur, mailIn] at hthere
        simp at hthere
  exact (announcedAlike_iff (mailInNew "/mail/ann/box") 1 (mailIn ["mail", "ann", "box"]) "/mail"
    "ann" "box" (by decide) .initial (by decide +kernel) hlists "new" (by decide) "m1" (by decide) []
    { headers := [], body := some "" } (by decide +kernel) rfl).mpr (.inl (by decide))

/-- A mailbox below another is watched, but neither the scan nor the live watch announces
its mail. -/
theorem child_mailbox_is_not_watched :
    let env := mailInNew "/mail/ann/Parent/Child"
    let tree := mailIn ["mail", "ann", "Parent", "Child"]
    let path := messageFilePath "/mail" "ann" "Parent/Child" "new" "m1"
    (WatcherState.initial.handleWatch "/mail" "ann" "Parent/Child"
        (env.calls "/mail" "ann" "Parent/Child" tree)).2.2 = .ok () ∧
      scannedPaths tree "/mail" "ann" "Parent/Child" (env.readDir tree) = [path] ∧
      scanPublishes plainMail tree "/mail" "ann" "Parent/Child" path = [] ∧
      (∀ later, handleCreateEvent { plainMail with now := later } tree "/mail" path = none) ∧
      ¬ ∃ created created', AnnouncedAlike plainMail 1 tree "/mail" "ann" "Parent/Child" "new"
        (env.readDir tree) path created created' := by
  intro env tree path
  have hparse : MaildirFormat.parseMessagePath path "/mail" = none := by decide +kernel
  have hlive (later : DateTime) :
      handleCreateEvent { plainMail with now := later } tree "/mail" path = none := by
    rw [handleCreateEvent, hparse]
    rfl
  refine ⟨by decide +kernel, by decide +kernel, by decide +kernel, hlive, ?_⟩
  rintro ⟨created, created', halike⟩
  have hannounced := halike.live
  rw [hlive 1] at hannounced
  cases hannounced

end Scuttled
