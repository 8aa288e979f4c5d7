import Mathlib.Data.Finset.Dedup
import Polychrome.Preload.Containment
import Polychrome.Preload.Presentation

/-!
# The order of the metadata does not matter

Every turn of the five loops of {lit}`discover` gains a set of files and a number of
skipped ones that do not depend on what has been found before.  Two presentations of
one installation gain the same, and the result is sorted.

Main results:

- Theorem {lit}`takePackage_uniform`: what a package gains.
- Theorem {lit}`takePackage_same`: two presentations of a package gain the same.
- Theorem {lit}`discover_order_independent`: two presentations of an installation have
  one result.
-/

namespace Polychrome

namespace Preload

open Posix Php Pcre Reordering

/-! ## What a turn gains -/

/-- A set of files, and how many were skipped. -/
@[ext]
structure Gain where
  files : Finset Path
  skipped : Nat

instance : Zero Gain where
  zero := { files := ∅, skipped := 0 }

instance : Add Gain where
  add g g' := { files := g.files ∪ g'.files, skipped := g.skipped + g'.skipped }

instance : AddCommMonoid Gain where
  add_assoc g g' g'' := Gain.ext (Finset.union_assoc _ _ _) (Nat.add_assoc _ _ _)
  zero_add g := Gain.ext (Finset.empty_union _) (Nat.zero_add _)
  add_zero g := Gain.ext (Finset.union_empty _) (Nat.add_zero _)
  add_comm g g' := Gain.ext (Finset.union_comm _ _) (Nat.add_comm _ _)
  nsmul := nsmulRec

/-- What has been found, without the order. -/
def Found.gain (found : Found) : Gain :=
  { files := found.files.toFinset, skipped := found.skipped }

/-- Nothing has been found. -/
def Found.start : Found := { files := [], skipped := 0 }

/-- Nothing is found at the start. -/
@[simp]
theorem Found.gain_start : Found.start.gain = 0 :=
  rfl

/-- A skipped file counts the same wherever it comes. -/
theorem Found.gain_skip (found : Found) : found.skip.gain = found.gain + Found.start.skip.gain := by
  apply Gain.ext
  · exact (Finset.union_empty _).symm
  · rfl

/-- An added file counts the same wherever it comes. -/
theorem Found.gain_add (found : Found) (file : Path) :
    (found.add file).gain = found.gain + (Found.start.add file).gain := by
  have hstart : Found.start.add file = { files := [file], skipped := 0 } := rfl
  rw [hstart, Found.add]
  split
  case isTrue hmem =>
    apply Gain.ext
    · change found.files.toFinset = found.files.toFinset ∪ [file].toFinset
      rw [eq_comm, Finset.union_eq_left]
      simpa using hmem
    · rfl
  case isFalse =>
    apply Gain.ext
    · change (found.files ++ [file]).toFinset = found.files.toFinset ∪ [file].toFinset
      rw [List.toFinset_append]
    · rfl

section Uniform

variable {host : Host} {root : Path}

/-- One entry gains the same wherever it comes. -/
theorem takeEntry_gain (patterns : List Bytes) (found : Found) (entry : Path) :
    (takeEntry host root patterns found entry).gain =
      found.gain + (takeEntry host root patterns .start entry).gain := by
  unfold takeEntry
  cases host.realpath (text entry) with
  | none => exact (add_zero _).symm
  | some file =>
      dsimp only
      split_ifs
      · exact (add_zero _).symm
      · exact Found.gain_skip found
      · exact Found.gain_skip found
      · exact Found.gain_add found file

/-- One candidate gains the same wherever it comes. -/
theorem takeCandidate_uniform (patterns : List Bytes) :
    Uniform Found.gain .start (takeCandidate host root patterns) := by
  intro found candidate
  unfold takeCandidate
  cases host.phpRealpath candidate with
  | error e => rfl
  | ok real? =>
      cases real? with
      | none => exact congrArg some (Found.gain_skip found)
      | some real =>
          change ((if _ then _ else _ : Except Thrown Found).toOption.map Found.gain) =
            ((if _ then _ else _ : Except Thrown Found).toOption.map Found.gain).map _
          split_ifs
          · exact congrArg some (Found.gain_skip found)
          · cases candidateEntries host real with
            | error e => rfl
            | ok entries =>
                change some (Found.gain (entries.foldl _ found)) =
                  some (_ + Found.gain (entries.foldl _ _))
                rw [foldl_gains (takeEntry_gain patterns), foldl_gains (takeEntry_gain patterns),
                  Found.gain_start, zero_add]

/-- One declared path gains the same wherever it comes. -/
theorem takePath_uniform (package : Package) (patterns : List Bytes) :
    Uniform Found.gain .start (takePath host root package patterns) := by
  intro found relative
  unfold takePath
  cases relative.asString with
  | error e => rfl
  | ok path =>
      change ((if _ then _ else _ : Except Thrown Found).toOption.map Found.gain) =
        ((if _ then _ else _ : Except Thrown Found).toOption.map Found.gain).map _
      split_ifs
      · rfl
      · exact (takeCandidate_uniform patterns).foldlM Found.gain_start found _

/-- One package gains the same wherever it comes. -/
theorem takePackage_uniform : Uniform Found.gain .start (takePackage host root) := by
  intro found package
  unfold takePackage
  cases declaredPaths package with
  | error e => rfl
  | ok paths =>
      cases exclusions package with
      | error e => rfl
      | ok patterns => exact (takePath_uniform package patterns).foldlM Found.gain_start found paths

end Uniform

/-! ## Two presentations -/

/-- What the iteration makes of an entry; {lit}`below` iterates over a directory. -/
def entryVisits (below : Path → List Visit) (dir : Path) (entry : Name × Node) : List Visit :=
  match entry.2 with
  | .link _ => []
  | .directory _ =>
      if pregMatch entryFilter entry.1.val then [] else below (dir ++ [entry.1])
  | _ => if pregMatch entryFilter entry.1.val then [] else [.leaf (dir ++ [entry.1])]

/-- What an entry leads to does not depend on its content. -/
theorem iterate_succ (files : FileSystem) (fuel : Nat) (dir : Path) :
    iterate files (fuel + 1) dir =
      .opened dir :: ((files.entries dir).map fun x => (x.1, x.2.shape)).flatMap
        (entryVisits (iterate files fuel) dir) := by
  rw [iterate, List.flatMap_map]
  congr 1
  apply List.flatMap_congr
  rintro ⟨c, node⟩ -
  cases node <;> rfl

section Same

variable {host host' : Host} {root : Path} (htree : host.files.SameTree host'.files)

include htree

/-- The two views have the same depth. -/
theorem depth_eq : depth host.files = depth host'.files := by
  have hlengths : ∀ t : FileSystem, t.nodes.map (fun x => x.1.length) =
      (t.nodes.map fun x => (x.1, x.2.shape)).map fun x => x.1.length := by
    intro t
    rw [List.map_map]
    rfl
  rw [depth, depth, hlengths, hlengths]
  congr 1
  apply (List.Perm.map _ htree).foldr_eq'
  intro m _ n _ k
  exact max_left_comm _ _ _

/-- The recursion comes to the same entries in another order. -/
theorem iterate_perm (fuel : Nat) (dir : Path) :
    (iterate host.files fuel dir).Perm (iterate host'.files fuel dir) := by
  induction fuel generalizing dir with
  | zero => exact List.Perm.refl []
  | succ fuel ih =>
      rw [iterate_succ, iterate_succ]
      refine List.Perm.cons _ ((htree.entries dir).flatMap ?_)
      rintro ⟨c, node⟩ -
      cases node with
      | directory readable =>
          unfold entryVisits
          dsimp only
          split_ifs
          · exact List.Perm.refl []
          · exact ih (dir ++ [c])
      | regular readable content => exact List.Perm.refl _
      | link target => exact List.Perm.refl _
      | special => exact List.Perm.refl _

/-- The files below a directory are the same, or it cannot be opened. -/
theorem entriesBelow_agree (dir : Path) :
    Agree List.Perm (entriesBelow host.files dir) (entriesBelow host'.files dir) := by
  have hvisits := iterate_perm htree (depth host.files) dir
  have hclosed : isClosed host.files = isClosed host'.files := by
    funext visit
    cases visit with
    | leaf file => rfl
    | opened p =>
        change (host.files.lookup p == _) = (host'.files.lookup p == _)
        rcases htree.lookup_cases p with heq | ⟨readable, content, content', hfile, hfile'⟩
        · rw [heq]
        · rw [hfile, hfile']
          rfl
  rw [entriesBelow_eq, entriesBelow_eq, ← depth_eq htree, hclosed, hvisits.any_eq]
  split_ifs
  · exact .error
  · exact .ok (hvisits.filterMap leafOf)

variable (hcwd : host.cwd = host'.cwd)

include hcwd

/-- One entry is taken alike on both views. -/
theorem takeEntry_same {patterns patterns' : List Bytes} (h : patterns.Perm patterns')
    (found : Found) (entry : Path) :
    takeEntry host root patterns found entry = takeEntry host' root patterns' found entry := by
  unfold takeEntry
  rw [realpath_eq htree hcwd, isFile_eq htree hcwd]
  cases host'.realpath (text entry) with
  | none => rfl
  | some file =>
      dsimp only
      rw [h.any_eq]

/-- One candidate gains the same on both views. -/
theorem takeCandidate_same {patterns patterns' : List Bytes} (h : patterns.Perm patterns')
    (candidate : Bytes) :
    (takeCandidate host root patterns .start candidate).toOption.map Found.gain =
      (takeCandidate host' root patterns' .start candidate).toOption.map Found.gain := by
  unfold takeCandidate
  rw [phpRealpath_eq htree hcwd]
  cases host'.phpRealpath candidate with
  | error e => rfl
  | ok real? =>
      cases real? with
      | none => rfl
      | some real =>
          change ((if _ then _ else _ : Except Thrown Found).toOption.map Found.gain) =
            ((if _ then _ else _ : Except Thrown Found).toOption.map Found.gain)
          split_ifs
          · rfl
          · have hentries : Agree List.Perm (candidateEntries host real)
                (candidateEntries host' real) := by
              unfold candidateEntries
              rw [isDir_eq htree hcwd]
              split_ifs
              · exact entriesBelow_agree htree real
              · exact .ok (List.Perm.refl _)
            generalize candidateEntries host real = first at hentries
            generalize candidateEntries host' real = second at hentries
            cases hentries with
            | error => rfl
            | @ok entries entries' hperm =>
                change some (Found.gain (entries.foldl _ .start)) =
                  some (Found.gain (entries'.foldl _ .start))
                rw [foldl_gains (takeEntry_gain patterns), foldl_gains (takeEntry_gain patterns')]
                have hgains : (fun entry => (takeEntry host root patterns .start entry).gain) =
                    fun entry => (takeEntry host' root patterns' .start entry).gain := by
                  funext entry
                  rw [takeEntry_same htree hcwd h]
                rw [hgains, (hperm.map _).sum_eq]

variable (hglob : ∀ p, (host.glob p).Perm (host'.glob p))

include hglob

/-- One declared path gains the same on both views. -/
theorem takePath_same {package package' : Package} (hbase : package.base = package'.base)
    {patterns patterns' : List Bytes} (h : patterns.Perm patterns') (relative : Value) :
    (takePath host root package patterns .start relative).toOption.map Found.gain =
      (takePath host' root package' patterns' .start relative).toOption.map Found.gain := by
  unfold takePath
  rw [hbase]
  cases relative.asString with
  | error e => rfl
  | ok path =>
      change ((if _ then _ else _ : Except Thrown Found).toOption.map Found.gain) =
        ((if _ then _ else _ : Except Thrown Found).toOption.map Found.gain)
      split_ifs
      · rfl
      · rw [(takeCandidate_uniform patterns).foldlM_eq Found.gain_start,
          (takeCandidate_uniform patterns').foldlM_eq Found.gain_start]
        refine total_eq (.perm (hglob _)) ?_
        rintro candidate _ rfl
        exact takeCandidate_same htree hcwd h candidate

/-- Two presentations of a package gain the same. -/
theorem takePackage_same {package package' : Package} (h : SamePackage package package') :
    (takePackage host root .start package).toOption.map Found.gain =
      (takePackage host' root .start package').toOption.map Found.gain := by
  have hpaths := declaredPaths_agree h
  have hexclusions := exclusions_agree h
  unfold takePackage
  generalize declaredPaths package = first at hpaths
  generalize declaredPaths package' = second at hpaths
  cases hpaths with
  | error => rfl
  | @ok paths paths' hpaths =>
      generalize exclusions package = first at hexclusions
      generalize exclusions package' = second at hexclusions
      cases hexclusions with
      | error => rfl
      | @ok patterns patterns' hpatterns =>
          change (paths.foldlM _ _ : Except Thrown Found).toOption.map Found.gain =
            (paths'.foldlM _ _ : Except Thrown Found).toOption.map Found.gain
          rw [(takePath_uniform package patterns).foldlM_eq Found.gain_start,
            (takePath_uniform package' patterns').foldlM_eq Found.gain_start]
          refine total_eq (.perm hpaths) ?_
          rintro relative _ rfl
          exact takePath_same htree hcwd hglob h.base hpatterns relative

end Same

/-! ## The result -/

/-- The sorted list depends on the set only. -/
theorem insertionSort_eq {l l' : List Path} (hl : l.Nodup) (hl' : l'.Nodup)
    (h : l.toFinset = l'.toFinset) : l.insertionSort Before = l'.insertionSort Before := by
  have hperm : (l.insertionSort Before).Perm (l'.insertionSort Before) :=
    (List.perm_insertionSort Before l).trans
      ((List.perm_of_nodup_nodup_toFinset_eq hl hl' h).trans
        (List.perm_insertionSort Before l').symm)
  exact hperm.eq_of_pairwise' (List.pairwise_insertionSort Before l)
    (List.pairwise_insertionSort Before l')

/-- The packages of two presentations come to one sorted list, or to an error. -/
theorem discover_agree {host host' : Host} {argument : Bytes}
    (h : SameInstallation host host' argument) :
    Agree Eq (discover host argument) (discover host' argument) := by
  rw [discover, discover, ← phpRealpath_eq h.tree h.cwd]
  cases hroot : host.phpRealpath argument with
  | error e => exact .error
  | ok root? =>
      cases root? with
      | none => exact .error
      | some root =>
          refine (packages_agree h hroot).bind ?_
          intro list list' hlist
          have hgain : (list.foldlM (takePackage host root) .start).toOption.map Found.gain =
              (list'.foldlM (takePackage host' root) .start).toOption.map Found.gain := by
            rw [takePackage_uniform.foldlM_eq Found.gain_start,
              takePackage_uniform.foldlM_eq Found.gain_start]
            exact total_eq hlist fun _ _ => takePackage_same h.tree h.cwd h.glob
          change Agree Eq (list.foldlM (takePackage host root) .start >>= _)
            (list'.foldlM (takePackage host' root) .start >>= _)
          cases hfirst : list.foldlM (takePackage host root) .start with
          | error e =>
              cases hsecond : list'.foldlM (takePackage host' root) .start with
              | error e' => exact .error
              | ok found' =>
                  rw [hfirst, hsecond] at hgain
                  cases hgain
          | ok found =>
              cases hsecond : list'.foldlM (takePackage host' root) .start with
              | error e' =>
                  rw [hfirst, hsecond] at hgain
                  cases hgain
              | ok found' =>
                  rw [hfirst, hsecond] at hgain
                  have hsame : found.gain = found'.gain := Option.some.inj hgain
                  have hnodup : found.files.Nodup :=
                    Collecting.foldlM_keeps (fun (found : Found) => found.files.Nodup)
                      (fun s a s' => takePackage_nodup) hfirst List.nodup_nil
                  have hnodup' : found'.files.Nodup :=
                    Collecting.foldlM_keeps (fun (found : Found) => found.files.Nodup)
                      (fun s a s' => takePackage_nodup) hsecond List.nodup_nil
                  have hfiles := insertionSort_eq hnodup hnodup' (congrArg Gain.files hsame)
                  have hskipped : found.skipped = found'.skipped := congrArg Gain.skipped hsame
                  refine .ok ?_
                  rw [Found.mk.injEq]
                  exact ⟨hfiles, hskipped⟩

/-- Two presentations of an installation have one result: the same files in the same
order, and the same number of skipped ones. -/
theorem discover_order_independent (host host' : Host) (argument : Bytes)
    (h : SameInstallation host host' argument) (found : Found) :
    discover host argument = .ok found ↔ discover host' argument = .ok found :=
  (discover_agree h).eq_ok_iff

/-- A class map of two files. -/
def classmapOf (first second : Bytes) : Value :=
  .array
    [(.string (bytes "autoload"), .array
      [(.string (bytes "classmap"), .array [(.int 0, .string first), (.int 1, .string second)])])]

/-- The text of the metadata. -/
def orderedMetadata (first second : String) : Bytes :=
  bytes ("\x7b\"autoload\":\x7b\"classmap\":[\"" ++ first ++ "\",\"" ++ second ++ "\"]\x7d\x7d")

/-- What both presentations share: the matches and the decoder. -/
def orderedHost (view : View) : Host where
  toView := view
  glob p := [p]
  jsonDecode json :=
    if json = orderedMetadata "a.php" "b.php" then
      some (classmapOf (bytes "a.php") (bytes "b.php"))
    else if json = orderedMetadata "b.php" "a.php" then
      some (classmapOf (bytes "b.php") (bytes "a.php"))
    else none

/-- An application with two files. -/
def firstView : View where
  files :=
    { nodes :=
        [([named "app"], .directory true),
          ([named "app", named "composer.json"], .regular true (orderedMetadata "a.php" "b.php")),
          ([named "app", named "a.php"], .regular true []),
          ([named "app", named "b.php"], .regular true [])]
      distinct := by decide
      rooted := by decide
      closed := by decide }
  cwd := []
  there := rfl

/-- The same files and the same declarations in the other order. -/
def secondView : View where
  files :=
    { nodes :=
        [([named "app"], .directory true),
          ([named "app", named "composer.json"], .regular true (orderedMetadata "b.php" "a.php")),
          ([named "app", named "b.php"], .regular true []),
          ([named "app", named "a.php"], .regular true [])]
      distinct := by decide
      rooted := by decide
      closed := by decide }
  cwd := []
  there := rfl

/-- The first view lists {lit}`a.php` before {lit}`b.php`. -/
theorem composerMetadata_firstView :
    composerMetadata (orderedHost firstView) [named "app"] =
      .ok (classmapOf (bytes "a.php") (bytes "b.php")) :=
  rfl

/-- The second view lists them the other way round. -/
theorem composerMetadata_secondView :
    composerMetadata (orderedHost secondView) [named "app"] =
      .ok (classmapOf (bytes "b.php") (bytes "a.php")) :=
  rfl

/-- The two views show one tree. -/
theorem sameTree_views : FileSystem.SameTree firstView.files secondView.files := by
  rw [FileSystem.SameTree]
  decide +kernel

/-- The two lists declare the same paths. -/
theorem sameComposer_views :
    SameComposer (classmapOf (bytes "a.php") (bytes "b.php"))
      (classmapOf (bytes "b.php") (bytes "a.php")) := by
  refine ⟨rfl, ?_, .refl .refl _, .refl .refl _, .refl _⟩
  exact Or.inr ⟨_, _, rfl, rfl, List.Perm.refl _, List.Perm.swap _ _ []⟩

/-- There is no vendor directory. -/
theorem vendorDirectory_firstView :
    vendorDirectory (orderedHost firstView) [named "app"] = .ok none := by
  rw [vendorDirectory, composerMetadata_firstView]
  rfl

/-- The two views show one installation. -/
theorem sameInstallation_views :
    SameInstallation (orderedHost firstView) (orderedHost secondView) (bytes "/app") where
  tree := sameTree_views
  cwd := rfl
  glob p := List.Perm.refl [p]
  composer := by
    intro root hroot
    have happ : root = [named "app"] := by cases hroot; rfl
    rw [happ, composerMetadata_firstView, composerMetadata_secondView]
    exact .ok sameComposer_views
  installed := by
    intro root vendor hroot hvendor
    have happ : root = [named "app"] := by cases hroot; rfl
    rw [happ, vendorDirectory_firstView] at hvendor
    cases hvendor

/-- Both files are found. -/
theorem discover_firstView :
    discover (orderedHost firstView) (bytes "/app") =
      .ok
        { files := [[named "app", named "a.php"], [named "app", named "b.php"]]
          skipped := 0 } := by
  decide +kernel

/-- Both views give the same two files. -/
theorem discover_order_independent_sample :
    ∃ found, discover (orderedHost firstView) (bytes "/app") = .ok found ∧
      discover (orderedHost secondView) (bytes "/app") = .ok found ∧ found.files.length = 2 :=
  ⟨_, discover_firstView,
    (discover_order_independent _ _ _ sameInstallation_views _).mp discover_firstView, rfl⟩

end Preload

end Polychrome
