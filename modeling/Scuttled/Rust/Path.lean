import Scuttled.Rust.Str

/-!
# Paths of the Rust standard library

A Unix path is a text; its components are what stands between the separators.
Resolving a path walks over its components without looking at any file system.
-/

namespace Scuttled.Rust

/-! ## Components and joining -/

inductive Component where
  | rootDir
  | curDir
  | parentDir
  | normal (name : String)
  deriving DecidableEq, Repr

def pieces (path : String) : List (List Char) := path.toList.splitOnP (· == '/')

/-- The component of a piece; empty pieces and single dots are passed over. -/
def pieceComponent (piece : List Char) : Option Component :=
  if piece = [] ∨ piece = ['.'] then none
  else if piece = ['.', '.'] then some .parentDir
  else some (.normal (String.ofList piece))

/-- The components after the root, or after a dot at the beginning. -/
def bodyComponents (path : String) : List Component := (pieces path).filterMap pieceComponent

def isAbsolute (path : String) : Bool := startsWith path "/"

def components (path : String) : List Component :=
  (if isAbsolute path then [.rootDir]
    else if (pieces path).head? = some ['.'] then [.curDir]
    else []) ++ bodyComponents path

/-- `Path::join`: an absolute path replaces what it is joined to. -/
def join (base path : String) : String :=
  if isAbsolute path then path
  else if base == "" || endsWith base "/" then base ++ path
  else base ++ "/" ++ path

def Component.asOsStr : Component → String
  | .rootDir => "/"
  | .curDir => "."
  | .parentDir => ".."
  | .normal name => name

/-- `Path::strip_prefix`: the components that follow those of the base. -/
def stripPrefix (path base : String) : Option (List Component) :=
  if (components base).isPrefixOf (components path) then
    some ((components path).drop (components base).length)
  else none

def fileName (path : String) : Option String :=
  match (components path).getLast? with
  | some (.normal name) => some name
  | _ => none

/-- The text is the name of a file or directory, not a path to one. -/
def SingleComponent (name : String) : Prop := components name = [.normal name]

instance (name : String) : Decidable (SingleComponent name) :=
  inferInstanceAs (Decidable (_ = _))

theorem bodyComponents_slash (first second : String) :
    bodyComponents (first ++ "/" ++ second) = bodyComponents first ++ bodyComponents second := by
  have hpieces : pieces (first ++ "/" ++ second) = pieces first ++ pieces second := by
    rw [pieces, String.toList_append, String.toList_append, List.append_assoc]
    exact List.splitOnP_append_cons _ _ (by decide)
  rw [bodyComponents, hpieces, List.filterMap_append]
  rfl

theorem bodyComponents_join {base path : String} (hpath : isAbsolute path = false) :
    bodyComponents (join base path) = bodyComponents base ++ bodyComponents path := by
  unfold join
  rw [hpath]
  simp only [Bool.false_eq_true, if_false]
  split
  · rename_i hbase
    rw [Bool.or_eq_true, beq_iff_eq] at hbase
    rcases hbase with rfl | hslash
    · rw [String.empty_append]
      rfl
    · -- the separator at the end of the base is the one between the two
      obtain ⟨start, hstart⟩ := List.isSuffixOf_iff_suffix.mp hslash
      obtain rfl : base = String.ofList start ++ "/" := by
        rw [← String.ofList_toList (s := base), ← hstart, String.ofList_append]
        rfl
      have hend := bodyComponents_slash (String.ofList start) ""
      rw [String.append_empty] at hend
      rw [bodyComponents_slash, hend]
      simp [show bodyComponents "" = [] from by decide]
  · exact bodyComponents_slash base path

theorem isAbsolute_append {base : String} (hbase : base ≠ "") (path : String) :
    isAbsolute (base ++ path) = isAbsolute base := by
  unfold isAbsolute startsWith
  rw [String.toList_append]
  cases hchars : base.toList with
  | nil => exact absurd (String.toList_eq_nil_iff.mp hchars) hbase
  | cons c chars => rfl

theorem isAbsolute_join {base path : String} (hpath : isAbsolute path = false) :
    isAbsolute (join base path) = isAbsolute base := by
  unfold join
  rw [hpath]
  simp only [Bool.false_eq_true, if_false]
  by_cases hbase : base = ""
  · rw [hbase]
    exact hpath
  · split
    · exact isAbsolute_append hbase path
    · rw [String.append_assoc]
      exact isAbsolute_append hbase _

theorem SingleComponent.bodyComponents_eq {name : String} (hname : SingleComponent name) :
    bodyComponents name = [.normal name] := by
  unfold SingleComponent components at hname
  split at hname
  · simp at hname
  · split at hname
    · simp at hname
    · exact hname

theorem SingleComponent.isAbsolute_eq {name : String} (hname : SingleComponent name) :
    isAbsolute name = false := by
  unfold SingleComponent components at hname
  cases habsolute : isAbsolute name with
  | false => rfl
  | true =>
      rw [habsolute] at hname
      cases hname

theorem SingleComponent.ne_empty {name : String} (hname : SingleComponent name) : name ≠ "" := by
  rintro rfl
  exact absurd hname (by decide)

theorem slash_notMem_of_mem_pieces {path : String} {piece : List Char}
    (hpiece : piece ∈ pieces path) : '/' ∉ piece := by
  intro hslash
  have hsep := (mem_of_mem_splitOnP hpiece hslash).2
  cases hsep

theorem slash_notMem_of_mem_bodyComponents {path name : String}
    (hmem : .normal name ∈ bodyComponents path) : '/' ∉ name.toList := by
  obtain ⟨piece, hpiece, hcomponent⟩ := List.mem_filterMap.mp hmem
  unfold pieceComponent at hcomponent
  split at hcomponent
  · cases hcomponent
  · split at hcomponent
    · cases hcomponent
    · cases hcomponent
      rw [String.toList_ofList]
      exact slash_notMem_of_mem_pieces hpiece

theorem SingleComponent.slash_notMem {name : String} (hname : SingleComponent name) :
    '/' ∉ name.toList := by
  apply slash_notMem_of_mem_bodyComponents
  rw [hname.bodyComponents_eq]
  exact List.mem_singleton_self _

theorem bodyComponents_of_slash_notMem {name : String} (hslash : '/' ∉ name.toList)
    (hempty : name ≠ "") (hdot : name ≠ ".") (hdots : name ≠ "..") :
    bodyComponents name = [.normal name] := by
  have hsplit : pieces name = [name.toList] :=
    List.splitOnP_eq_singleton fun c hc => by
      rw [beq_eq_false_iff_ne]
      exact fun hsep => hslash (hsep ▸ hc)
  have hchars {chars : List Char} (hother : name ≠ String.ofList chars) : name.toList ≠ chars :=
    fun hsame => hother (hsame ▸ String.ofList_toList.symm)
  have hpiece : pieceComponent name.toList = some (.normal name) := by
    rw [pieceComponent, if_neg (not_or.mpr ⟨hchars hempty, hchars hdot⟩), if_neg (hchars hdots),
      String.ofList_toList]
  rw [bodyComponents, hsplit, List.filterMap_cons_some hpiece]
  rfl

theorem singleComponent_of_slash_notMem {name : String} (hslash : '/' ∉ name.toList)
    (hempty : name ≠ "") (hdot : name ≠ ".") (hdots : name ≠ "..") : SingleComponent name := by
  have hrelative : isAbsolute name = false := by
    rw [isAbsolute, startsWith, ← Bool.not_eq_true, List.isPrefixOf_iff_prefix]
    exact fun hstart => hslash (hstart.subset List.mem_cons_self)
  have hhead : (pieces name).head? ≠ some ['.'] := by
    have hsplit : pieces name = [name.toList] :=
      List.splitOnP_eq_singleton fun c hc => by
        rw [beq_eq_false_iff_ne]
        exact fun hsep => hslash (hsep ▸ hc)
    rw [hsplit]
    intro hsame
    exact hdot (String.toList_injective (Option.some.inj hsame))
  rw [SingleComponent, components, hrelative, if_neg hhead,
    bodyComponents_of_slash_notMem hslash hempty hdot hdots]
  rfl

theorem singleComponent_of_mem_bodyComponents {path : String} {component : Component}
    (hmem : component ∈ bodyComponents path) :
    SingleComponent component.asOsStr ∨ component = .parentDir := by
  obtain ⟨piece, hpiece, hcomponent⟩ := List.mem_filterMap.mp hmem
  unfold pieceComponent at hcomponent
  split at hcomponent
  · cases hcomponent
  · split at hcomponent
    · exact .inr (Option.some.inj hcomponent).symm
    · rename_i hnone hdots
      obtain rfl := Option.some.inj hcomponent
      have hchars {text : String} (hne : piece ≠ text.toList) : String.ofList piece ≠ text :=
        fun hsame => hne (by rw [← hsame, String.toList_ofList])
      refine .inl (singleComponent_of_slash_notMem ?_ (hchars ?_) (hchars ?_) (hchars ?_))
      · rw [Component.asOsStr, String.toList_ofList]
        exact slash_notMem_of_mem_pieces hpiece
      · exact fun hempty => hnone (.inl hempty)
      · exact fun hdot => hnone (.inr hdot)
      · exact hdots

theorem mem_bodyComponents_of_components {path : String} {before rest : List Component}
    {component : Component} (hpath : components path = before ++ component :: rest)
    (hbefore : before ≠ []) : component ∈ bodyComponents path := by
  have hdrop : (components path).drop 1 = before.drop 1 ++ component :: rest := by
    rw [hpath, List.drop_append_of_le_length (List.length_pos_iff.mpr hbefore)]
  have hbody : component ∈ (components path).drop 1 := by
    rw [hdrop]
    exact List.mem_append_right _ List.mem_cons_self
  unfold components at hbody
  split at hbody
  · exact hbody
  · split at hbody
    · exact hbody
    · exact List.mem_of_mem_drop hbody

theorem head_pieces_slash (first second : String) :
    (pieces (first ++ "/" ++ second)).head? = (pieces first).head? := by
  have hpieces : pieces (first ++ "/" ++ second) = pieces first ++ pieces second := by
    rw [pieces, String.toList_append, String.toList_append, List.append_assoc]
    exact List.splitOnP_append_cons _ _ (by decide)
  rw [hpieces]
  cases hfirst : pieces first with
  | nil => exact absurd hfirst (List.splitOnP_ne_nil _ _)
  | cons piece rest => rfl

theorem components_slash {first : String} (hfirst : first ≠ "") (second : String) :
    components (first ++ "/" ++ second) = components first ++ bodyComponents second := by
  have habsolute : isAbsolute (first ++ "/" ++ second) = isAbsolute first := by
    rw [String.append_assoc, isAbsolute_append hfirst]
  rw [components, components, habsolute, head_pieces_slash, bodyComponents_slash, List.append_assoc]

theorem components_join_of_ne_empty {base path : String} (hbase : base ≠ "")
    (hpath : isAbsolute path = false) :
    components (join base path) = components base ++ bodyComponents path := by
  unfold join
  rw [hpath]
  simp only [Bool.false_eq_true, if_false]
  split
  · rename_i hslash
    rw [Bool.or_eq_true, beq_iff_eq, or_iff_right hbase] at hslash
    obtain ⟨start, hstart⟩ := List.isSuffixOf_iff_suffix.mp hslash
    obtain rfl : base = String.ofList start ++ "/" := by
      rw [← String.ofList_toList (s := base), ← hstart, String.ofList_append]
      rfl
    by_cases hempty : String.ofList start = ""
    · -- the base is the root directory
      rw [hempty, String.empty_append, components, components, isAbsolute_append (by decide)]
      have hbody := bodyComponents_slash "" path
      rw [String.empty_append] at hbody
      rw [hbody]
      rfl
    · have hend := components_slash hempty ""
      rw [String.append_empty] at hend
      rw [components_slash hempty, hend]
      simp [show bodyComponents "" = [] from by decide]
  · exact components_slash hbase path

theorem isAbsolute_of_components {path : String} (hpath : components path = bodyComponents path) :
    isAbsolute path = false := by
  cases habsolute : isAbsolute path with
  | false => rfl
  | true =>
      have hlength := congrArg List.length hpath
      rw [components, habsolute, List.length_append] at hlength
      exact absurd hlength (Nat.ne_of_gt (Nat.lt_add_of_pos_left Nat.one_pos))

theorem components_join_of_relative (base : String) {path : String}
    (hpath : components path = bodyComponents path) :
    components (join base path) = components base ++ components path := by
  have hrelative := isAbsolute_of_components hpath
  by_cases hbase : base = ""
  · have hjoin : join "" path = path := by
      unfold join
      rw [hrelative]
      exact String.empty_append
    rw [hbase, hjoin]
    rfl
  · rw [components_join_of_ne_empty hbase hrelative, hpath]

theorem components_join (base : String) {name : String} (hname : SingleComponent name) :
    components (join base name) = components base ++ [.normal name] := by
  have hall : components name = [.normal name] := hname
  rw [components_join_of_relative base (hall.trans hname.bodyComponents_eq.symm), hall]

theorem stripPrefix_append {path base : String} {rest : List Component}
    (hpath : components path = components base ++ rest) : stripPrefix path base = some rest := by
  rw [stripPrefix, hpath, if_pos (by simp), List.drop_left]

theorem components_of_stripPrefix {path base : String} {rest : List Component}
    (hstrip : stripPrefix path base = some rest) : components path = components base ++ rest := by
  unfold stripPrefix at hstrip
  split at hstrip
  · rename_i hstart
    obtain ⟨after, hafter⟩ := List.isPrefixOf_iff_prefix.mp hstart
    rw [← hafter, List.drop_left] at hstrip
    rw [← hafter, Option.some.inj hstrip]
  · cases hstrip

theorem fileName_eq_some_iff {path name : String} :
    fileName path = some name ↔ (components path).getLast? = some (.normal name) := by
  unfold fileName
  split
  · rename_i found hfound
    simp [hfound]
  · rename_i hother
    constructor
    · intro hname
      cases hname
    · intro hname
      exact absurd hname (hother name)

/-! ## Parents -/

/-- The component a path begins with that no piece stands for alone: the root, or a dot. -/
def leadOf : List (List Char) → List Component
  | [] :: _ :: _ => [.rootDir]
  | ['.'] :: _ => [.curDir]
  | _ => []

/-- `Path::parent`: what stands before the last component, without separators and dots
at its end. -/
def parent (path : String) : Option String :=
  let isPassed (piece : List Char) : Bool := (pieceComponent piece).isNone
  let fixed := (leadOf (pieces path)).length
  let body := ((pieces path).drop fixed).rdropWhile isPassed
  if body.isEmpty then
    if leadOf (pieces path) = [.curDir] then some "" else none
  else
    let kept := (pieces path).take fixed ++ body.dropLast.rdropWhile isPassed
    some (if kept = [[]] then "/" else String.ofList (['/'].intercalate kept))

theorem pieces_intercalate {kept : List (List Char)} (hslash : ∀ piece ∈ kept, '/' ∉ piece)
    (hkept : kept ≠ []) : pieces (String.ofList (['/'].intercalate kept)) = kept := by
  rw [pieces, String.toList_ofList, ← List.splitOn_eq_splitOnP]
  exact List.splitOn_intercalate '/' hslash hkept

/-- The components of a path, from its pieces. -/
theorem components_eq (path : String) :
    components path = leadOf (pieces path) ++ (pieces path).filterMap pieceComponent := by
  unfold components bodyComponents isAbsolute startsWith
  congr 1
  cases hchars : path.toList with
  | nil =>
      rw [pieces, hchars]
      rfl
  | cons c chars =>
      rw [pieces, hchars, List.splitOnP_cons_eq_if_modifyHead]
      obtain ⟨first, rest, hsplit⟩ := List.exists_cons_of_ne_nil
        (List.splitOnP_ne_nil (· == '/') chars)
      rw [hsplit]
      by_cases hsep : c = '/'
      · subst hsep
        rfl
      · have hbeq : (c == '/') = false := beq_eq_false_iff_ne.mpr hsep
        have hbegins : "/".toList.isPrefixOf (c :: chars) = false := by
          simp [List.isPrefixOf, Ne.symm hsep]
        rw [hbeq, hbegins]
        simp only [Bool.false_eq_true, if_false, List.modifyHead_cons, List.head?_cons,
          Option.some.injEq]
        split
        · rename_i hdot
          rw [hdot]
          rfl
        · rename_i hdot
          unfold leadOf
          split
          · rename_i hcons
            cases hcons
          · rename_i hcons
            exact absurd (List.cons.inj hcons).1 hdot
          · rfl

theorem components_intercalate {kept : List (List Char)} (hslash : ∀ piece ∈ kept, '/' ∉ piece)
    (hkept : kept ≠ []) :
    components (String.ofList (['/'].intercalate kept)) =
      leadOf kept ++ kept.filterMap pieceComponent := by
  rw [components_eq, pieces_intercalate hslash hkept]

theorem filterMap_rdropWhile (body : List (List Char)) :
    (body.rdropWhile fun piece => (pieceComponent piece).isNone).filterMap pieceComponent =
      body.filterMap pieceComponent := by
  induction body using List.reverseRecOn with
  | nil => rfl
  | append_singleton body piece ih =>
      cases hpiece : pieceComponent piece with
      | none =>
          rw [List.rdropWhile_concat_pos _ _ _ (by rw [hpiece]; rfl), ih, List.filterMap_append,
            List.filterMap_cons_none hpiece]
          exact (List.append_nil _).symm
      | some component =>
          rw [List.rdropWhile_concat_neg _ _ _ (by rw [hpiece]; exact Bool.false_ne_true)]

theorem leadOf_of_prefix {kept all : List (List Char)} (hbegins : kept <+: all) (hkept : kept ≠ [])
    (hroot : kept ≠ [[]]) : leadOf kept = leadOf all := by
  obtain ⟨rest, rfl⟩ := hbegins
  match kept with
  | [] => exact absurd rfl hkept
  | [] :: [] => exact absurd rfl hroot
  | [] :: second :: others => rfl
  | (c :: chars) :: others =>
      rw [List.cons_append]
      unfold leadOf
      split <;> simp_all

theorem filterMap_take_leadOf (all : List (List Char)) :
    (all.take (leadOf all).length).filterMap pieceComponent = [] := by
  unfold leadOf
  split <;> rfl

theorem leadOf_of_take {all : List (List Char)} (htake : all.take (leadOf all).length = [[]]) :
    leadOf all = [.rootDir] := by
  unfold leadOf at htake ⊢
  split at htake
  · rfl
  · cases htake
  · cases htake

theorem leadOf_of_take_nil {all : List (List Char)} (htake : all.take (leadOf all).length = []) :
    leadOf all = [] := by
  unfold leadOf at htake ⊢
  split at htake
  · cases htake
  · cases htake
  · rfl

theorem slash_notMem_of_fileName {path name : String} (hname : fileName path = some name) :
    '/' ∉ name.toList := by
  have hmem := List.mem_of_getLast? (fileName_eq_some_iff.mp hname)
  rw [components_eq] at hmem
  rcases List.mem_append.mp hmem with hlead | hbody
  · unfold leadOf at hlead
    split at hlead <;> simp at hlead
  · exact slash_notMem_of_mem_bodyComponents hbody

theorem components_eq_of_normal {path name : String} {rest : List Component}
    (hpath : components path = .normal name :: rest) :
    components path = bodyComponents path := by
  have hall := hpath
  rw [components_eq] at hall ⊢
  unfold leadOf at hall ⊢
  split at hall
  · cases hall
  · cases hall
  · rfl

theorem pieceComponent_of_rdropWhile {body init : List (List Char)} {piece : List Char}
    (hinit : (body.rdropWhile fun piece => (pieceComponent piece).isNone) = init ++ [piece]) :
    ∃ component, pieceComponent piece = some component := by
  have hlast := List.rdropWhile_last_not (fun piece => (pieceComponent piece).isNone) body
    (by rw [hinit]; exact List.concat_ne_nil _ _)
  simp only [hinit, List.getLast_concat, Option.isNone_iff_eq_none] at hlast
  exact Option.ne_none_iff_exists'.mp hlast

/-- A path to a file is its parent and the name of the file. -/
theorem parent_of_fileName {path name : String} (hname : fileName path = some name) :
    ∃ up, parent path = some up ∧ components path = components up ++ [.normal name] := by
  have hlast : (components path).getLast? = some (.normal name) := fileName_eq_some_iff.mp hname
  have hslash : ∀ piece ∈ pieces path, '/' ∉ piece := fun _ => slash_notMem_of_mem_pieces
  rw [components_eq] at hlast ⊢
  unfold parent
  generalize pieces path = all at hlast hslash ⊢
  let isPassed (piece : List Char) : Bool := (pieceComponent piece).isNone
  have hbody : ((all.drop (leadOf all).length).rdropWhile isPassed).filterMap pieceComponent =
      all.filterMap pieceComponent := by
    have hall := congrArg (List.filterMap pieceComponent)
      (List.take_append_drop (leadOf all).length all)
    rw [List.filterMap_append, filterMap_take_leadOf, List.nil_append] at hall
    rw [filterMap_rdropWhile, hall]
  rcases List.eq_nil_or_concat ((all.drop (leadOf all).length).rdropWhile isPassed) with
    hnone | ⟨init, piece, hinit⟩
  · -- without a body the path ends at the root or at a dot
    rw [hnone] at hbody
    rw [← hbody, List.filterMap_nil, List.append_nil] at hlast
    unfold leadOf at hlast
    split at hlast <;> cases hlast
  · rw [List.concat_eq_append] at hinit
    obtain ⟨component, hpiece⟩ := pieceComponent_of_rdropWhile hinit
    let rest := init.rdropWhile isPassed
    have hrest : rest.filterMap pieceComponent = init.filterMap pieceComponent :=
      filterMap_rdropWhile init
    rw [hinit, List.filterMap_append, List.filterMap_cons_some hpiece, List.filterMap_nil,
      ← hrest] at hbody
    obtain rfl : component = .normal name := by
      rw [← hbody, ← List.append_assoc, List.getLast?_concat] at hlast
      exact Option.some.inj hlast
    have hkept : all.take (leadOf all).length ++ rest <+: all := by
      have hbegins : rest <+: all.drop (leadOf all).length :=
        (List.rdropWhile_prefix isPassed init).trans
          ((List.prefix_append init [piece]).trans (hinit ▸ List.rdropWhile_prefix isPassed _))
      have happend := List.prefix_append_right_inj (all.take (leadOf all).length) |>.mpr hbegins
      rwa [List.take_append_drop] at happend
    have hfilter : (all.take (leadOf all).length ++ rest).filterMap pieceComponent =
        rest.filterMap pieceComponent := by
      rw [List.filterMap_append, filterMap_take_leadOf, List.nil_append]
    rw [if_neg (by rw [hinit]; simp), hinit, List.dropLast_concat]
    refine ⟨_, rfl, ?_⟩
    rw [← hbody, ← List.append_assoc]
    congr 1
    split
    · rename_i hroot
      -- the path is that of a file in the root directory
      have hrestNone : rest.filterMap pieceComponent = [] := by
        rw [← hfilter, show _ ++ rest = _ from hroot]
        rfl
      rw [hrestNone, List.append_nil]
      rcases List.append_eq_singleton_iff.mp hroot with ⟨-, hpassed⟩ | ⟨htake, -⟩
      · obtain ⟨component, hcomponent⟩ :=
          pieceComponent_of_rdropWhile (hpassed.trans (List.nil_append [[]]).symm)
        cases hcomponent
      · exact leadOf_of_take htake
    · rename_i hroot
      by_cases hempty : all.take (leadOf all).length ++ rest = []
      · obtain ⟨htake, hrestNil⟩ := List.append_eq_nil_iff.mp hempty
        rw [show _ ++ init.rdropWhile _ = _ from hempty, show rest = [] from hrestNil]
        rw [leadOf_of_take_nil htake]
        rfl
      · rw [components_intercalate (fun piece hmem => hslash piece (hkept.subset hmem)) hempty,
          leadOf_of_prefix hkept hempty hroot, hfilter]

/-! ## Resolving -/

/-- Where a path leads: from the root or from the working directory, up a number
of directories, then down along names. -/
structure Location where
  absolute : Bool
  up : Nat
  names : List String
  deriving DecidableEq, Repr

namespace Location

/-- One component further.  The parent of the root is the root. -/
def enter (location : Location) : Component → Location
  | .rootDir => { absolute := true, up := 0, names := [] }
  | .curDir => location
  | .normal name => { location with names := location.names ++ [name] }
  | .parentDir =>
      if location.names = [] then
        if location.absolute then location else { location with up := location.up + 1 }
      else { location with names := location.names.dropLast }

/-- The first location is inside the directory at the second, at any depth. -/
def StrictlyBelow (location base : Location) : Prop :=
  location.absolute = base.absolute ∧ location.up = base.up ∧
    ∃ name rest, location.names = base.names ++ name :: rest

theorem StrictlyBelow.trans {first second third : Location} (hfirst : first.StrictlyBelow second)
    (hsecond : second.StrictlyBelow third) : first.StrictlyBelow third := by
  obtain ⟨habsolute, hup, name, rest, hnames⟩ := hfirst
  obtain ⟨habsolute', hup', name', rest', hnames'⟩ := hsecond
  refine ⟨habsolute.trans habsolute', hup.trans hup', name', rest' ++ name :: rest, ?_⟩
  rw [hnames, hnames', List.append_assoc]
  rfl

end Location

/-- Resolves a path by its text alone. -/
def resolve (path : String) : Location :=
  (components path).foldl .enter { absolute := false, up := 0, names := [] }

theorem resolve_eq (path : String) :
    resolve path =
      (bodyComponents path).foldl .enter { absolute := isAbsolute path, up := 0, names := [] } := by
  unfold resolve components
  cases isAbsolute path with
  | true => rfl
  | false =>
      rw [List.foldl_append]
      simp only [Bool.false_eq_true, if_false]
      split <;> rfl

theorem resolve_join (base path : String) :
    resolve (join base path) = (components path).foldl .enter (resolve base) := by
  cases hpath : isAbsolute path with
  | true =>
      have hjoin : join base path = path := by rw [join, if_pos hpath]
      rw [hjoin, resolve, components, hpath]
      rfl
  | false =>
      rw [resolve_eq, resolve_eq base, bodyComponents_join hpath, isAbsolute_join hpath,
        List.foldl_append, components, hpath, List.foldl_append]
      simp only [Bool.false_eq_true, if_false]
      split <;> rfl

theorem resolve_join_of_relative (base : String) {path : String}
    (hpath : isAbsolute path = false) :
    resolve (join base path) = (bodyComponents path).foldl .enter (resolve base) := by
  rw [resolve_eq, resolve_eq base, bodyComponents_join hpath, isAbsolute_join hpath,
    List.foldl_append]

/-! ## Walks that stay inside -/

/-- Walking over the components never leaves the directory the walk began in,
when the walk has already gone down so many directories. -/
def StaysInside : Nat → List Component → Prop
  | _, [] => True
  | _, .rootDir :: _ => False
  | depth, .curDir :: rest => StaysInside depth rest
  | depth, .normal _ :: rest => StaysInside (depth + 1) rest
  | 0, .parentDir :: _ => False
  | depth + 1, .parentDir :: rest => StaysInside depth rest

theorem staysInside_components_iff (path : String) :
    StaysInside 0 (components path) ↔
      isAbsolute path = false ∧ StaysInside 0 (bodyComponents path) := by
  unfold components
  cases isAbsolute path with
  | true => simp [StaysInside]
  | false =>
      simp only [Bool.false_eq_true, if_false, true_and]
      split <;> rfl

theorem enter_parentDir_concat (absolute : Bool) (up : Nat) (names : List String)
    (name : String) :
    Location.enter { absolute, up, names := names ++ [name] } .parentDir =
      { absolute, up, names } := by
  simp [Location.enter]

theorem foldl_enter_of_staysInside {depth : Nat} {walk : List Component}
    (hwalk : StaysInside depth walk) (absolute : Bool) (up : Nat) (base : List String)
    {inner : List String} (hdepth : inner.length = depth) :
    ∃ inner', walk.foldl Location.enter { absolute, up, names := base ++ inner } =
      { absolute, up, names := base ++ inner' } := by
  induction walk generalizing depth inner with
  | nil => exact ⟨inner, rfl⟩
  | cons component rest ih =>
      cases component with
      | rootDir => exact hwalk.elim
      | curDir => exact ih hwalk hdepth
      | normal name =>
          have hdeeper : (inner ++ [name]).length = depth + 1 := by
            rw [List.length_append, hdepth]
            rfl
          have hrest := ih hwalk hdeeper
          rwa [← List.append_assoc] at hrest
      | parentDir =>
          cases depth with
          | zero => exact hwalk.elim
          | succ depth =>
              rcases List.eq_nil_or_concat inner with rfl | ⟨outer, name, rfl⟩
              · cases hdepth
              · have hrest := ih hwalk (show outer.length = depth by simpa using hdepth)
                rw [List.foldl_cons, List.concat_eq_append, ← List.append_assoc,
                  enter_parentDir_concat]
                exact hrest

/-- Where a walk ends that leaves the directory it began in does not depend on
the name of that directory. -/
theorem foldl_enter_of_not_staysInside {depth : Nat} {walk : List Component}
    (hwalk : ¬ StaysInside depth walk) (absolute : Bool) (up : Nat) (base : List String)
    {inner : List String} (hdepth : inner.length = depth) (first second : String) :
    walk.foldl Location.enter { absolute, up, names := base ++ first :: inner } =
      walk.foldl Location.enter { absolute, up, names := base ++ second :: inner } := by
  induction walk generalizing depth inner with
  | nil => exact absurd trivial hwalk
  | cons component rest ih =>
      cases component with
      | rootDir => rfl
      | curDir => exact ih hwalk hdepth
      | normal name =>
          have hdeeper : (inner ++ [name]).length = depth + 1 := by
            rw [List.length_append, hdepth]
            rfl
          have hrest := ih hwalk hdeeper
          rw [← List.cons_append, ← List.cons_append, ← List.append_assoc,
            ← List.append_assoc] at hrest
          exact hrest
      | parentDir =>
          cases depth with
          | zero =>
              obtain rfl := List.length_eq_zero_iff.mp hdepth
              rw [List.foldl_cons, List.foldl_cons, enter_parentDir_concat,
                enter_parentDir_concat]
          | succ depth =>
              rcases List.eq_nil_or_concat inner with rfl | ⟨outer, name, rfl⟩
              · cases hdepth
              · have hrest := ih hwalk (show outer.length = depth by simpa using hdepth)
                rw [List.foldl_cons, List.foldl_cons, List.concat_eq_append,
                  ← List.cons_append, ← List.cons_append, ← List.append_assoc,
                  ← List.append_assoc, enter_parentDir_concat, enter_parentDir_concat]
                exact hrest

end Scuttled.Rust
