import Mathlib.Data.List.Nodup
import Polychrome.Library.CanonicalPath

/-!
# File systems with symbolic links

A file system is a finite table of entries, each under its canonical path.  The
root directory is always there.  The order of the table is the order in which
directories are read.

Main results:

- Definition {lit}`FileSystem.realpath`: the canonical path behind a text, links
  followed.
- Theorem {lit}`FileSystem.realpath_node`: what it finds exists and is no link.
- Theorem {lit}`FileSystem.realpath_text`: a canonical path of an entry that is no
  link stands for itself.
- Theorem {lit}`FileSystem.SameTree.realpath`: neither the order of the table nor the
  contents of the files matter to it.

Current gaps:

- Every directory can be searched, and texts have any length.
-/

namespace Posix

/-- An entry of a directory. -/
inductive Node
  | directory (readable : Bool)
  | regular (readable : Bool) (content : Bytes)
  | link (target : Bytes)
  /-- a socket, a pipe or a device -/
  | special
deriving DecidableEq, Repr

/-- The entries, each in a directory of the table. -/
structure FileSystem where
  nodes : List (Path × Node)
  distinct : (nodes.map Prod.fst).Nodup
  rooted : ∀ x ∈ nodes, x.1 ≠ []
  closed : ∀ x ∈ nodes, x.1.dropLast = [] ∨
    ∃ readable, (x.1.dropLast, Node.directory readable) ∈ nodes

namespace FileSystem

variable (fs : FileSystem)

/-- The entry at a canonical path. -/
def lookup (p : Path) : Option Node :=
  if p = [] then some (.directory true)
  else (fs.nodes.find? fun x => x.1 = p).map Prod.snd

/-- The entries of a directory in the order of the table. -/
def entries (dir : Path) : List (Name × Node) :=
  fs.nodes.filterMap fun x =>
    if x.1.dropLast = dir then x.1.getLast?.map fun c => (c, x.2) else none

/-- There is a directory at the path. -/
def isDirectory (p : Path) : Bool :=
  match fs.lookup p with
  | some (.directory _) => true
  | _ => false

/-- How far a text leads without following a link. -/
inductive Progress
  | arrived (p : Path)
  /-- a link in {lit}`dir`, with the components behind it -/
  | link (dir : Path) (target : Bytes) (rest : List Bytes)
  | missing
deriving DecidableEq, Repr

/-- Resolve components from a directory up to the first link. -/
def advance (dir : Path) : List Bytes → Progress
  | [] => .arrived dir
  | c :: rest =>
      if fs.isDirectory dir = false then .missing
      else if c = [] ∨ c = bytes "." then advance dir rest
      else if c = bytes ".." then advance dir.dropLast rest
      else if hname : IsName c then
        match fs.lookup (dir ++ [⟨c, hname⟩]) with
        | none => .missing
        | some (.link target) => .link dir target rest
        | some _ => advance (dir ++ [⟨c, hname⟩]) rest
      else .missing

/-- Resolve components and follow at most {lit}`links` links. -/
def resolve (links : Nat) (dir : Path) (todo : List Bytes) : Option Path :=
  match fs.advance dir todo with
  | .arrived p => some p
  | .missing => none
  | .link dir target rest =>
      match links with
      | 0 => none
      | links + 1 =>
          if target = [] then none
          else resolve links (if target.head? = some slash then [] else dir)
            (target.splitOn slash ++ rest)

/-- The most links that are followed for one text. -/
def maxLinks : Nat := 40

/-- {lit}`realpath` for a process whose working directory is {lit}`cwd`. -/
def realpath (cwd : Path) (p : Bytes) : Option Path :=
  if p = [] then none
  else fs.resolve maxLinks (if p.head? = some slash then [] else cwd) (p.splitOn slash)

/-- {lit}`stat` -/
def stat (cwd : Path) (p : Bytes) : Option Node := (fs.realpath cwd p).bind fs.lookup

/-! ## Entries -/

variable {fs}

/-- A directory is what the table has as one. -/
theorem isDirectory_iff {p : Path} :
    fs.isDirectory p = true ↔ ∃ readable, fs.lookup p = some (.directory readable) := by
  unfold isDirectory
  split
  case h_1 readable hlookup => exact ⟨fun _ => ⟨readable, hlookup⟩, fun _ => rfl⟩
  case h_2 hno =>
    simp only [Bool.false_eq_true, false_iff]
    rintro ⟨readable, hlookup⟩
    exact hno readable hlookup

/-- Below the root directory the table is asked. -/
theorem lookup_eq_some_iff {p : Path} {n : Node} (hp : p ≠ []) :
    fs.lookup p = some n ↔ (p, n) ∈ fs.nodes := by
  rw [lookup, if_neg hp, Option.map_eq_some_iff]
  constructor
  · rintro ⟨x, hx, rfl⟩
    have hkey : x.1 = p := by simpa using List.find?_some hx
    rw [← hkey]
    exact List.mem_of_find?_eq_some hx
  · intro hmem
    cases hfind : fs.nodes.find? fun x => x.1 = p with
    | none => simpa using List.find?_eq_none.mp hfind (p, n) hmem
    | some x =>
        refine ⟨x, rfl, ?_⟩
        have hkey : x.1 = p := by simpa using List.find?_some hfind
        have heq : x = (p, n) :=
          List.inj_on_of_nodup_map fs.distinct (List.mem_of_find?_eq_some hfind) hmem hkey
        rw [heq]

/-- The entries of a directory are what is found below it. -/
theorem mem_entries {dir : Path} {c : Name} {n : Node} :
    (c, n) ∈ fs.entries dir ↔ fs.lookup (dir ++ [c]) = some n := by
  rw [lookup_eq_some_iff (by simp), entries, List.mem_filterMap]
  constructor
  · rintro ⟨⟨p, m⟩, hmem, hsome⟩
    split at hsome
    case isTrue hdir =>
      rcases Option.map_eq_some_iff.mp hsome with ⟨d, hlast, hpair⟩
      cases hpair
      have hp : p = dir ++ [c] := by
        rw [← hdir]
        exact (List.dropLast_append_getLast? c hlast).symm
      rwa [← hp]
    case isFalse => cases hsome
  · intro hmem
    exact ⟨(dir ++ [c], n), hmem, by simp⟩

/-- The directory of an entry is in the table. -/
theorem isDirectory_of_lookup {dir : Path} {c : Name} {n : Node}
    (h : fs.lookup (dir ++ [c]) = some n) : fs.isDirectory dir = true := by
  rw [lookup_eq_some_iff (by simp)] at h
  rcases fs.closed _ h with hroot | ⟨readable, hmem⟩
  · rw [List.dropLast_concat] at hroot
    rw [isDirectory, hroot]
    rfl
  · rw [List.dropLast_concat] at hmem
    by_cases hdir : dir = []
    · rw [isDirectory, hdir]
      rfl
    · rw [isDirectory, (lookup_eq_some_iff hdir).mpr hmem]

/-- Every path on the way to an entry is a directory. -/
theorem isDirectory_of_append {p q : Path} {n : Node} (hq : q ≠ [])
    (h : fs.lookup (p ++ q) = some n) : fs.isDirectory p = true := by
  induction q using List.reverseRecOn generalizing n with
  | nil => exact absurd rfl hq
  | append_singleton q c ih =>
      rw [← List.append_assoc] at h
      have hdir := isDirectory_of_lookup h
      by_cases hempty : q = []
      · rwa [hempty, List.append_nil] at hdir
      · have hlookup : ∃ m, fs.lookup (p ++ q) = some m := by
          rw [← Option.isSome_iff_exists]
          unfold isDirectory at hdir
          cases hm : fs.lookup (p ++ q) with
          | none => rw [hm] at hdir; cases hdir
          | some m => rfl
        rcases hlookup with ⟨m, hm⟩
        exact ih hempty hm

/-! ## Real paths -/

/-- There is an entry at the path, and it is no link. -/
def Solid (fs : FileSystem) (p : Path) : Prop :=
  ∃ n, fs.lookup p = some n ∧ ∀ target, n ≠ .link target

/-- A directory is there, without a link on the way. -/
theorem solid_of_isDirectory {p : Path} (h : fs.isDirectory p = true) : Solid fs p := by
  unfold isDirectory at h
  split at h
  case h_1 readable hlookup => exact ⟨_, hlookup, by simp⟩
  case h_2 => cases h

/-- What a directory lies in is solid. -/
theorem solid_dropLast {p : Path} (h : fs.isDirectory p = true) : Solid fs p.dropLast := by
  rcases List.eq_nil_or_concat p with rfl | ⟨dir, c, rfl⟩
  · exact ⟨_, rfl, by simp⟩
  · rw [List.concat_eq_append, List.dropLast_concat]
    rcases solid_of_isDirectory h with ⟨n, hlookup, -⟩
    rw [List.concat_eq_append] at hlookup
    exact solid_of_isDirectory (isDirectory_of_lookup hlookup)

/-- A walk from a place that is there arrives at one, or at a link there. -/
theorem advance_solid {dir : Path} {todo : List Bytes} (hdir : Solid fs dir) :
    (∀ p, fs.advance dir todo = .arrived p → Solid fs p) ∧
      ∀ d target rest, fs.advance dir todo = .link d target rest → Solid fs d := by
  induction todo generalizing dir with
  | nil =>
      constructor
      · intro p h
        cases h
        exact hdir
      · intro d target rest h
        cases h
  | cons c rest ih =>
      rw [advance]
      split_ifs with hno hdot hup hname
      · simp
      · exact ih hdir
      · exact ih (solid_dropLast (Bool.not_eq_false _ ▸ hno))
      · split
        case h_1 => simp
        case h_2 target hlookup =>
          constructor
          · simp
          · rintro d _ _ h
            cases h
            exact hdir
        case h_3 n hlink hlookup =>
          exact ih ⟨n, hlookup, fun target hn => hlink target (by rw [hn])⟩
      · simp

/-- A path that is resolved leads to a place that is there. -/
theorem resolve_solid {links : Nat} {dir : Path} {todo : List Bytes} {p : Path}
    (hdir : Solid fs dir) (h : fs.resolve links dir todo = some p) : Solid fs p := by
  induction links generalizing dir todo with
  | zero =>
      unfold resolve at h
      split at h
      case h_1 q harrived =>
        cases h
        exact (advance_solid hdir).1 _ harrived
      case h_2 => cases h
      case h_3 => cases h
  | succ links ih =>
      unfold resolve at h
      split at h
      case h_1 q harrived =>
        cases h
        exact (advance_solid hdir).1 _ harrived
      case h_2 => cases h
      case h_3 d target rest hlink =>
        dsimp only at h
        split_ifs at h with hempty habsolute
        · exact ih ⟨_, rfl, by simp⟩ h
        · exact ih ((advance_solid hdir).2 _ _ _ hlink) h

/-- What {lit}`realpath` finds exists and is no link. -/
theorem realpath_node {cwd p' : Path} {p : Bytes} (hcwd : Solid fs cwd)
    (h : fs.realpath cwd p = some p') : Solid fs p' := by
  unfold realpath at h
  split_ifs at h with hempty habsolute
  · exact resolve_solid ⟨_, rfl, by simp⟩ h
  · exact resolve_solid hcwd h

/-- From a directory that is gone only an absolute text leads anywhere. -/
theorem realpath_solid {cwd p' : Path} {p : Bytes} (h : fs.realpath cwd p = some p') :
    Solid fs p' := by
  by_cases hcwd : fs.isDirectory cwd = true
  · exact realpath_node (solid_of_isDirectory hcwd) h
  · unfold realpath at h
    split_ifs at h with hempty habsolute
    · exact resolve_solid ⟨_, rfl, by simp⟩ h
    · have hmissing : fs.advance cwd (p.splitOn slash) = .missing := by
        cases hparts : p.splitOn slash with
        | nil => exact absurd hparts (List.splitOn_ne_nil slash p)
        | cons c rest => rw [advance, if_pos (Bool.not_eq_true _ ▸ hcwd)]
      rw [resolve, hmissing] at h
      cases h

/-- Names that lead to an entry without a link in between. -/
theorem advance_names {dir p : Path} (h : Solid fs (dir ++ p)) :
    fs.advance dir (p.map Subtype.val) = .arrived (dir ++ p) := by
  induction p generalizing dir with
  | nil => rw [List.append_nil, List.map_nil, advance]
  | cons c p ih =>
      have hassoc : dir ++ c :: p = (dir ++ [c]) ++ p := by simp
      have hdir : fs.isDirectory dir = true := by
        rcases h with ⟨n, hlookup, -⟩
        exact isDirectory_of_append (by simp) hlookup
      have hsolid : Solid fs (dir ++ [c]) := by
        cases p with
        | nil => exact h
        | cons d p =>
            rcases h with ⟨n, hlookup, -⟩
            rw [hassoc] at hlookup
            exact solid_of_isDirectory (isDirectory_of_append (by simp) hlookup)
      rw [hassoc] at h ⊢
      rw [List.map_cons, advance, if_neg (by simp [hdir]),
        if_neg (by simp [c.property.1, c.property.2.1]), if_neg c.property.2.2.1,
        dif_pos c.property]
      rcases hsolid with ⟨n, hlookup, hlink⟩
      rw [Subtype.coe_eta, hlookup]
      cases n with
      | link target => exact absurd rfl (hlink target)
      | directory readable => exact ih h
      | regular readable content => exact ih h
      | special => exact ih h

/-- A canonical path stands for itself. -/
theorem realpath_text {cwd p : Path} (h : Solid fs p) : fs.realpath cwd (text p) = some p := by
  cases p with
  | nil =>
      rw [realpath, if_neg (by simp), if_pos (by simp), resolve]
      rfl
  | cons c p =>
      have habsolute : (text (c :: p)).head? = some slash := rfl
      have harrived : fs.advance [] ((text (c :: p)).splitOn slash) = .arrived (c :: p) := by
        rw [splitOn_text_cons, advance, if_neg (by simp [isDirectory, lookup]),
          if_pos (Or.inl rfl)]
        have habove : Solid fs ([] ++ c :: p) := h
        exact advance_names habove
      rw [realpath, if_neg (by simp [text, below]), if_pos habsolute, resolve, harrived]

/-- {lit}`stat` of a canonical path reads the entry. -/
theorem stat_text {cwd p : Path} (h : Solid fs p) : fs.stat cwd (text p) = fs.lookup p := by
  rw [stat, realpath_text h, Option.bind_some]

end FileSystem

/-! ## Two tables of one tree -/

/-- The entry without its content. -/
def Node.shape : Node → Node
  | .regular readable _ => .regular readable []
  | node => node

namespace FileSystem

/-- The tables hold the same entries, contents apart, in any order. -/
def SameTree (fs fs' : FileSystem) : Prop :=
  (fs.nodes.map fun x => (x.1, x.2.shape)).Perm (fs'.nodes.map fun x => (x.1, x.2.shape))

section SameTree

variable {fs fs' : FileSystem}

/-- The tables may be exchanged. -/
theorem SameTree.symm (h : SameTree fs fs') : SameTree fs' fs :=
  List.Perm.symm h

/-- Two views of one tree have the same at every path, contents apart. -/
theorem SameTree.lookup (h : SameTree fs fs') (p : Path) :
    (fs.lookup p).map Node.shape = (fs'.lookup p).map Node.shape := by
  by_cases hp : p = []
  · rw [hp]
    rfl
  · have hmem : ∀ (t : FileSystem) (n : Node), (t.lookup p).map Node.shape = some n ↔
        (p, n) ∈ t.nodes.map fun x => (x.1, x.2.shape) := by
      intro t n
      rw [Option.map_eq_some_iff, List.mem_map]
      constructor
      · rintro ⟨m, hlookup, rfl⟩
        exact ⟨(p, m), (lookup_eq_some_iff hp).mp hlookup, rfl⟩
      · rintro ⟨⟨q, m⟩, hnode, heq⟩
        cases heq
        exact ⟨m, (lookup_eq_some_iff hp).mpr hnode, rfl⟩
    apply Option.ext
    intro n
    rw [hmem, hmem]
    exact h.mem_iff

/-- The entries at a path are equal, or files with different contents. -/
theorem SameTree.lookup_cases (h : SameTree fs fs') (p : Path) :
    fs.lookup p = fs'.lookup p ∨ ∃ readable content content',
      fs.lookup p = some (.regular readable content) ∧
        fs'.lookup p = some (.regular readable content') := by
  have hcases : ∀ n n' : Option Node, n.map Node.shape = n'.map Node.shape →
      n = n' ∨ ∃ readable content content',
        n = some (.regular readable content) ∧ n' = some (.regular readable content') := by
    rintro (_ | ⟨⟩ | ⟨readable, content⟩ | ⟨⟩ | ⟨⟩) (_ | ⟨⟩ | ⟨readable', content'⟩ | ⟨⟩ | ⟨⟩)
      <;> simp [Node.shape]
    -- Only two files are left.
    intro heq
    exact Or.inr heq.symm
  exact hcases _ _ (h.lookup p)

/-- Two views of one tree have the same directories. -/
theorem SameTree.isDirectory (h : SameTree fs fs') (p : Path) :
    fs.isDirectory p = fs'.isDirectory p := by
  rw [FileSystem.isDirectory, FileSystem.isDirectory]
  rcases h.lookup_cases p with heq | ⟨readable, content, content', hfile, hfile'⟩
  · rw [heq]
  · rw [hfile, hfile']

/-- The entries of a directory are the same, contents apart, in any order. -/
theorem SameTree.entries (h : SameTree fs fs') (dir : Path) :
    ((fs.entries dir).map fun x => (x.1, x.2.shape)).Perm
      ((fs'.entries dir).map fun x => (x.1, x.2.shape)) := by
  have hshape : ∀ t : FileSystem, (t.entries dir).map (fun x => (x.1, x.2.shape)) =
      (t.nodes.map fun x => (x.1, x.2.shape)).filterMap fun x =>
        if x.1.dropLast = dir then x.1.getLast?.map fun c => (c, x.2) else none := by
    intro t
    rw [FileSystem.entries, List.map_filterMap, List.filterMap_map]
    congr 1
    funext x
    dsimp only [Function.comp_apply]
    split
    case isTrue => rw [Option.map_map]; rfl
    case isFalse => rfl
  rw [hshape, hshape]
  exact h.filterMap _

/-- A walk goes the same way. -/
theorem SameTree.advance (h : SameTree fs fs') (dir : Path) (todo : List Bytes) :
    fs.advance dir todo = fs'.advance dir todo := by
  induction todo generalizing dir with
  | nil => rfl
  | cons c todo ih =>
      rw [FileSystem.advance, FileSystem.advance, h.isDirectory]
      split_ifs with hdir hstay hup hname
      · rfl
      · exact ih dir
      · exact ih dir.dropLast
      · rcases h.lookup_cases (dir ++ [⟨c, hname⟩]) with
          heq | ⟨readable, content, content', hfile, hfile'⟩
        · rw [heq]
          cases fs'.lookup (dir ++ [⟨c, hname⟩]) with
          | none => rfl
          | some node =>
              cases node with
              | link target => rfl
              | directory readable => exact ih _
              | regular readable content => exact ih _
              | special => exact ih _
        · rw [hfile, hfile']
          exact ih _
      · rfl

/-- Paths are resolved in the same way. -/
theorem SameTree.resolve (h : SameTree fs fs') (links : Nat) (dir : Path) (todo : List Bytes) :
    fs.resolve links dir todo = fs'.resolve links dir todo := by
  induction links generalizing dir todo with
  | zero =>
      unfold FileSystem.resolve
      rw [h.advance]
  | succ links ih =>
      unfold FileSystem.resolve
      rw [h.advance]
      cases fs'.advance dir todo with
      | arrived p => rfl
      | missing => rfl
      | link dir target rest => simp only [ih]

/-- Neither the order nor the contents matter to {lit}`realpath`. -/
theorem SameTree.realpath (h : SameTree fs fs') (cwd : Path) (p : Bytes) :
    fs.realpath cwd p = fs'.realpath cwd p := by
  rw [FileSystem.realpath, FileSystem.realpath, h.resolve]

/-- {lit}`stat` finds equal entries, or files with different contents. -/
theorem SameTree.stat_cases (h : SameTree fs fs') (cwd : Path) (p : Bytes) :
    fs.stat cwd p = fs'.stat cwd p ∨ ∃ readable content content',
      fs.stat cwd p = some (.regular readable content) ∧
        fs'.stat cwd p = some (.regular readable content') := by
  rw [FileSystem.stat, FileSystem.stat, h.realpath]
  cases fs'.realpath cwd p with
  | none => exact Or.inl rfl
  | some q => exact h.lookup_cases q

end SameTree

end FileSystem

/-! ## What a process sees -/

/-- A file system and the working directory of a process. -/
structure View where
  files : FileSystem
  cwd : Path
  there : files.isDirectory cwd = true

namespace View

/-- {lit}`realpath` -/
def realpath (view : View) (p : Bytes) : Option Path := view.files.realpath view.cwd p

/-- {lit}`stat` -/
def stat (view : View) (p : Bytes) : Option Node := view.files.stat view.cwd p

variable {view : View}

/-- What {lit}`realpath` finds exists and is no link. -/
theorem solid_of_realpath {p : Bytes} {p' : Path} (h : view.realpath p = some p') :
    view.files.Solid p' :=
  FileSystem.realpath_node (FileSystem.solid_of_isDirectory view.there) h

/-- A canonical path that is there is its own. -/
@[simp]
theorem realpath_text {p : Path} (h : view.files.Solid p) : view.realpath (text p) = some p :=
  FileSystem.realpath_text h

/-- What is found by its text is what the table has. -/
theorem stat_text {p : Path} (h : view.files.Solid p) :
    view.stat (text p) = view.files.lookup p :=
  FileSystem.stat_text h

end View

end Posix
