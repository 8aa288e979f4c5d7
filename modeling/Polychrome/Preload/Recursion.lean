import Polychrome.Preload.NameFilter

/-!
# The recursion into directories

{lit}`discover` hands a directory to a filtered recursive iterator.  The filter
passes over links and over nine names, and the recursion goes down through the
directories that are left.  The table of a file system is finite, so it comes to an
end on its own.

Main results:

- Theorem {lit}`entryFilter_iff`: the names that the filter passes over.
- Theorem {lit}`mem_iterate_iff`: what the iteration comes to, as a path down through
  directories.
- Theorem {lit}`iterate_stable`: the bound on the depth is never what ends it.
- Theorem {lit}`leads_iff`: where a declared path leads, without the entries in
  between.
-/

namespace Polychrome

namespace Preload

open Posix Php Pcre

/-! ## The filter -/

/-- The names that the filter passes over, in lower case. -/
def passedOverNames : List Bytes :=
  [bytes "test", bytes "tests", bytes "fixture", bytes "fixtures", bytes "modules",
    bytes "themes", bytes "node_modules", bytes "vendor", bytes ".git"]

/-- A name that the filter is meant to pass over. -/
def IsPassedOverName (c : Bytes) : Prop := c.map lower ∈ passedOverNames

instance : DecidablePred IsPassedOverName := fun c =>
  inferInstanceAs (Decidable (c.map lower ∈ passedOverNames))

/-- The alternatives of the pattern. -/
def passedOverRegex : Regex :=
  match compile
      (bytes "~(?:tests?|fixtures?|modules|themes|node_modules|vendor|\\.git)~i") with
  | some (_, r) => r
  | none => .empty

/-- The filter of the entries compiles to its names, anchored. -/
theorem compile_entryFilter :
    compile entryFilter = some (true, .cat .start (.cat passedOverRegex .finish)) := by
  rfl

/-- The end of the pattern also stands before a newline at the end of the name. -/
theorem entryFilter_iff {c : Bytes} :
    pregMatch entryFilter c = true ↔
      IsPassedOverName c ∨ ∃ d, c = d ++ [10] ∧ IsPassedOverName d := by
  have hnames : Spells (Row true [passedOverRegex]) {d | IsPassedOverName d} :=
    (spells_words rfl).row
  have hrow : ∀ u v, Matches true (.cat .start (.cat passedOverRegex .finish)) u v ↔
      Row true (.start :: ([passedOverRegex] ++ [.finish])) u v := by
    intro u v
    let g : Group := { alternatives := [], items := [.finish, passedOverRegex, .start] }
    exact matches_sequence_iff (g := g)
  rw [pregMatch, compile_entryFilter]
  change search true _ c = true ↔ _
  rw [search_iff]
  simp only [hrow]
  rw [anchored_iff hnames]
  constructor
  · rintro ⟨d, hname, rfl | hd⟩
    · exact Or.inl hname
    · exact Or.inr ⟨d, hd, hname⟩
  · rintro (hname | ⟨d, hd, hname⟩)
    · exact ⟨c, hname, Or.inl rfl⟩
    · exact ⟨d, hname, Or.inr hd⟩

/-! ## The way down -/

section Iteration

variable {files : FileSystem}

/-- The recursion goes down through these names. -/
def Passes (files : FileSystem) : Path → List Name → Prop
  | _, [] => True
  | dir, c :: q =>
      files.isDirectory (dir ++ [c]) = true ∧ pregMatch entryFilter c.val = false ∧
        Passes files (dir ++ [c]) q

/-- What the iteration comes to in a directory it has opened. -/
def Sees (files : FileSystem) (dir : Path) : Visit → Prop
  | .opened p => p = dir
  | .leaf p => ∃ c node, p = dir ++ [c] ∧ files.lookup p = some node ∧
      files.isDirectory p = false ∧ (∀ target, node ≠ .link target) ∧
      pregMatch entryFilter c.val = false

/-- A path passes the filter part by part. -/
theorem passes_append {dir : Path} {q r : List Name} :
    Passes files dir (q ++ r) ↔ Passes files dir q ∧ Passes files (dir ++ q) r := by
  induction q generalizing dir with
  | nil => simp [Passes]
  | cons c q ih =>
      rw [List.cons_append, Passes, Passes, ih, List.append_assoc, and_assoc, and_assoc]
      rfl

/-- Where the recursion goes there are directories. -/
theorem isDirectory_of_passes {dir : Path} {q : List Name} (h : Passes files dir q)
    (hdir : files.isDirectory dir = true) : files.isDirectory (dir ++ q) = true := by
  induction q generalizing dir with
  | nil => rwa [List.append_nil]
  | cons c q ih =>
      have hassoc : dir ++ c :: q = (dir ++ [c]) ++ q := by simp
      rw [hassoc]
      exact ih h.2.2 h.1

/-- The iteration opens the directories on its way and comes to what they hold. -/
theorem mem_iterate_iff {fuel : Nat} {dir : Path} {visit : Visit} :
    visit ∈ iterate files fuel dir ↔
      ∃ q, q.length < fuel ∧ Passes files dir q ∧ Sees files (dir ++ q) visit := by
  induction fuel generalizing dir with
  | zero => simp [iterate]
  | succ fuel ih =>
      have hsplit : (∃ q : List Name, q.length < fuel + 1 ∧ Passes files dir q ∧
            Sees files (dir ++ q) visit) ↔
          Sees files dir visit ∨ ∃ c q, files.isDirectory (dir ++ [c]) = true ∧
            pregMatch entryFilter c.val = false ∧ q.length < fuel ∧
            Passes files (dir ++ [c]) q ∧ Sees files ((dir ++ [c]) ++ q) visit := by
        constructor
        · rintro ⟨q, hlength, hpasses, hsees⟩
          cases q with
          | nil => exact Or.inl (by rwa [List.append_nil] at hsees)
          | cons c q =>
              refine Or.inr ⟨c, q, hpasses.1, hpasses.2.1, Nat.lt_of_succ_lt_succ hlength,
                hpasses.2.2, ?_⟩
              rwa [List.append_assoc]
        · rintro (hsees | ⟨c, q, hdir, hname, hlength, hpasses, hsees⟩)
          · exact ⟨[], Nat.succ_pos _, trivial, by rwa [List.append_nil]⟩
          · refine ⟨c :: q, Nat.succ_lt_succ hlength, ⟨hdir, hname, hpasses⟩, ?_⟩
            rwa [List.append_assoc] at hsees
      rw [hsplit, iterate, List.mem_cons, List.mem_flatMap]
      constructor
      · rintro (rfl | ⟨⟨c, node⟩, hentry, hmem⟩)
        · exact Or.inl rfl
        · have hlookup := FileSystem.mem_entries.mp hentry
          dsimp only at hmem
          split at hmem
          case h_1 => cases hmem
          case h_2 readable =>
            split at hmem
            case isTrue => cases hmem
            case isFalse hname =>
              rcases ih.mp hmem with ⟨q, hlength, hpasses, hsees⟩
              exact Or.inr ⟨c, q, FileSystem.isDirectory_iff.mpr ⟨readable, hlookup⟩,
                Bool.not_eq_true _ ▸ hname, hlength, hpasses, hsees⟩
          case h_3 hnolink hnodir =>
            split at hmem
            case isTrue => cases hmem
            case isFalse hname =>
              rw [List.mem_singleton] at hmem
              rw [hmem]
              refine Or.inl ⟨c, node, rfl, hlookup, ?_, fun target hlink => hnolink target hlink,
                Bool.not_eq_true _ ▸ hname⟩
              rw [← Bool.not_eq_true, FileSystem.isDirectory_iff]
              rintro ⟨readable, hdir⟩
              rw [hlookup, Option.some.injEq] at hdir
              exact hnodir readable hdir
      · rintro (hsees | ⟨c, q, hdir, hname, hlength, hpasses, hsees⟩)
        · cases visit with
          | opened p =>
              rw [show p = dir from hsees]
              exact Or.inl rfl
          | leaf p =>
              rcases hsees with ⟨c, node, rfl, hlookup, hnodir, hnolink, hname⟩
              refine Or.inr ⟨(c, node), FileSystem.mem_entries.mpr hlookup, ?_⟩
              cases node with
              | link target => exact absurd rfl (hnolink target)
              | directory readable =>
                  rw [FileSystem.isDirectory_iff.mpr ⟨readable, hlookup⟩] at hnodir
                  cases hnodir
              | regular readable content => simp [hname]
              | special => simp [hname]
        · rcases FileSystem.isDirectory_iff.mp hdir with ⟨readable, hlookup⟩
          refine Or.inr ⟨(c, .directory readable), FileSystem.mem_entries.mpr hlookup, ?_⟩
          simp only [hname, Bool.false_eq_true, ↓reduceIte]
          exact ih.mpr ⟨q, hlength, hpasses, hsees⟩

/-! ## The depth of the table -/

/-- An entry of the table is not as deep as the bound. -/
theorem length_lt_depth {p : Path} {node : Node} (h : files.lookup p = some node) :
    p.length < depth files := by
  have hbound : ∀ (l : List Nat) (n : Nat), n ∈ l → n ≤ l.foldr max 0 := by
    intro l n hn
    induction l with
    | nil => cases hn
    | cons m l ih =>
        rw [List.foldr_cons]
        rcases List.mem_cons.mp hn with rfl | hmem
        · exact le_max_left _ _
        · exact (ih hmem).trans (le_max_right _ _)
  by_cases hp : p = []
  · rw [hp]
    exact Nat.succ_pos _
  · rw [FileSystem.lookup_eq_some_iff hp] at h
    exact Nat.lt_succ_of_le (hbound _ _ (List.mem_map_of_mem h))

/-- The recursion ends by itself: no bound from the depth of the table on changes
what it comes to. -/
theorem iterate_stable {fuel fuel' : Nat} {dir : Path} (hpos : 0 < fuel) (hpos' : 0 < fuel')
    (h : depth files ≤ fuel + dir.length) (h' : depth files ≤ fuel' + dir.length) :
    iterate files fuel dir = iterate files fuel' dir := by
  induction fuel generalizing fuel' dir with
  | zero => cases hpos
  | succ fuel ih =>
      cases fuel' with
      | zero => cases hpos'
      | succ fuel' =>
          rw [iterate, iterate]
          congr 1
          apply List.flatMap_congr
          rintro ⟨c, node⟩ hentry
          have hdeep := length_lt_depth (FileSystem.mem_entries.mp hentry)
          rw [List.length_append, List.length_singleton] at hdeep
          cases node with
          | link target => rfl
          | regular readable content => rfl
          | special => rfl
          | directory readable =>
              have hlength : (dir ++ [c]).length = dir.length + 1 := by simp
              have hrest : iterate files fuel (dir ++ [c]) = iterate files fuel' (dir ++ [c]) :=
                ih (by omega) (by omega) (by omega) (by omega)
              simp only [hrest]

/-- A way down is not as long as the bound. -/
theorem length_lt_depth_of_passes {dir : Path} {q : List Name} (h : Passes files dir q) :
    q.length < depth files := by
  rcases List.eq_nil_or_concat q with rfl | ⟨q, c, rfl⟩
  · exact Nat.succ_pos _
  · rw [List.concat_eq_append] at h ⊢
    have hlast := (passes_append.mp h).2.1
    rcases FileSystem.isDirectory_iff.mp hlast with ⟨readable, hlookup⟩
    have hdeep := length_lt_depth hlookup
    rw [List.append_assoc, List.length_append] at hdeep
    omega

end Iteration

/-- A directory that cannot be opened. -/
def isClosed (files : FileSystem) : Visit → Bool
  | .opened p => files.lookup p == some (.directory false)
  | .leaf _ => false

/-- A file that the recursion has come to. -/
def leafOf : Visit → Option Path
  | .opened _ => none
  | .leaf file => some file

/-- The entries below a directory, as one pass over the visits. -/
theorem entriesBelow_eq (files : FileSystem) (dir : Path) :
    entriesBelow files dir =
      if (iterate files (depth files) dir).any (isClosed files) then
        .error .unexpectedValueException
      else .ok ((iterate files (depth files) dir).filterMap leafOf) :=
  rfl

/-! ## From a declared path to a file -/

/-- A candidate of a declared path resolves to the place, which is inside the root. -/
def Starts (host : Host) (root : Path) (package : Package) (real : Path) : Prop :=
  ∃ paths relative path candidate, declaredPaths package = .ok paths ∧ relative ∈ paths ∧
    Value.asString relative = .ok path ∧ candidate ∈ host.glob (anchored package.base path) ∧
    host.phpRealpath candidate = .ok (some real) ∧ root <+: real

/-- The file is the place itself, or the recursion that starts there comes to it. -/
def Yields (files : FileSystem) (real file : Path) : Prop :=
  files.isDirectory real = false ∧ file = real ∨
    files.isDirectory real = true ∧ ∃ q c, file = real ++ q ++ [c] ∧ Passes files real q

/-- A PHP file that none of the patterns matches. -/
def Admissible (files : FileSystem) (patterns : List Bytes) (file : Path) : Prop :=
  (∃ readable content, files.lookup file = some (.regular readable content)) ∧
    strEndsWith (text file) (bytes ".php") = true ∧
    ∀ pattern ∈ patterns, pregMatch pattern (text file) = false

section Leads

variable {host : Host} {root : Path}

/-- A path that stands for itself is a file if a file lies there. -/
theorem isFile_text {p : Path} (h : host.files.Solid p) :
    host.isFile (text p) = true ↔
      ∃ readable content, host.files.lookup p = some (.regular readable content) := by
  rw [Host.isFile, View.stat_text h]
  split
  case h_1 readable content hlookup => simp [zero_notMem_text, hlookup]
  case h_2 hno =>
    simp only [Bool.false_eq_true, false_iff]
    rintro ⟨readable, content, hlookup⟩
    exact hno readable content hlookup

/-- A path that stands for itself is a directory if one lies there. -/
theorem isDir_text {p : Path} (h : host.files.Solid p) :
    host.isDir (text p) = host.files.isDirectory p := by
  rw [Bool.eq_iff_iff, FileSystem.isDirectory_iff, Host.isDir, View.stat_text h]
  split
  case h_1 readable hlookup => simp [zero_notMem_text, hlookup]
  case h_2 hno =>
    simp only [Bool.false_eq_true, false_iff]
    rintro ⟨readable, hlookup⟩
    exact hno readable hlookup

/-- What {lit}`realpath` gives stands for itself. -/
theorem solid_of_phpRealpath {p : Bytes} {real : Path}
    (h : host.phpRealpath p = .ok (some real)) : host.files.Solid real := by
  unfold Host.phpRealpath at h
  split_ifs at h with hzero hempty
  · cases h
    exact FileSystem.solid_of_isDirectory host.there
  · rw [Except.ok.injEq] at h
    exact View.solid_of_realpath h

/-- A canonical entry is the file it arrives at. -/
theorem arrives_iff {patterns : List Bytes} {entry file : Path} (h : host.files.Solid entry) :
    Arrives host root patterns entry file ↔
      file = entry ∧ Admissible host.files patterns file ∧ root <+: file := by
  rw [Arrives, View.realpath_text h, isFile_text h, Option.some.injEq, within_iff]
  constructor
  · rintro ⟨rfl, hfile, hphp, hinside, hpatterns⟩
    exact ⟨rfl, ⟨hfile, hphp, hpatterns⟩, hinside⟩
  · rintro ⟨rfl, ⟨hfile, hphp, hpatterns⟩, hinside⟩
    exact ⟨rfl, hfile, hphp, hinside, hpatterns⟩

/-- The entries of a candidate: itself, or what the recursion comes to. -/
theorem mem_candidateEntries {real entry : Path} {entries : List Path}
    (hreal : host.files.Solid real) (h : candidateEntries host real = .ok entries) :
    entry ∈ entries ↔ host.files.isDirectory real = false ∧ entry = real ∨
      host.files.isDirectory real = true ∧
        ∃ q, Passes host.files real q ∧ Sees host.files (real ++ q) (.leaf entry) := by
  rw [candidateEntries, isDir_text hreal] at h
  split at h
  case isFalse hdir =>
    cases h
    simp [hdir]
  case isTrue hdir =>
    rw [entriesBelow] at h
    split at h
    case isTrue => cases h
    case isFalse =>
      cases h
      have hleaf : (∃ visit ∈ iterate host.files (depth host.files) real,
          (match visit with
            | .opened _ => none
            | .leaf file => some file) = some entry) ↔
          .leaf entry ∈ iterate host.files (depth host.files) real := by
        constructor
        · rintro ⟨visit, hmem, hsome⟩
          cases visit with
          | opened p => cases hsome
          | leaf p =>
              cases hsome
              exact hmem
        · intro hmem
          exact ⟨_, hmem, rfl⟩
      rw [List.mem_filterMap]
      refine hleaf.trans ?_
      rw [mem_iterate_iff]
      simp only [hdir, Bool.true_eq_false, false_and, false_or, true_and]
      constructor
      · rintro ⟨q, -, hpasses, hsees⟩
        exact ⟨q, hpasses, hsees⟩
      · rintro ⟨q, hpasses, hsees⟩
        exact ⟨q, length_lt_depth_of_passes hpasses, hpasses, hsees⟩

/-- The filter passes over no PHP file. -/
theorem not_entryFilter_of_php {dir : Path} {c : Name}
    (h : strEndsWith (text (dir ++ [c])) (bytes ".php") = true) :
    pregMatch entryFilter c.val = false := by
  have hlast : c.val.getLast? = some 112 := by
    rw [strEndsWith, List.isSuffixOf_iff_suffix, text_of_ne_nil (by simp), below_append,
      below_cons, below_nil, List.append_nil] at h
    rcases h with ⟨rest, hrest⟩
    have hboth := congrArg List.getLast? hrest
    have hphp : (bytes ".php").getLast? = some 112 := rfl
    rw [List.getLast?_append, hphp, List.getLast?_append, Option.some_or,
      List.getLast?_cons] at hboth
    cases hc : c.val.getLast? with
    | none => exact absurd (List.getLast?_eq_none_iff.mp hc) c.property.1
    | some b => simpa [hc, eq_comm] using hboth
  have hlower : ∀ {d : Bytes}, IsPassedOverName d → d.getLast? ≠ some 112 := by
    intro d hd hd'
    have hnone : ∀ name ∈ passedOverNames, name.getLast? ≠ some 112 := by decide
    refine hnone _ hd ?_
    rw [List.getLast?_map, hd']
    rfl
  rw [← Bool.not_eq_true, entryFilter_iff]
  rintro (hname | ⟨d, hd, hname⟩)
  · exact hlower hname hlast
  · rw [hd, List.getLast?_append] at hlast
    cases hlast

/-- Where the declared paths of a package lead. -/
theorem leads_iff {package : Package} {file : Path} :
    Leads host root package file ↔ ∃ patterns real entries, exclusions package = .ok patterns ∧
      Starts host root package real ∧ candidateEntries host real = .ok entries ∧
      Yields host.files real file ∧ Admissible host.files patterns file := by
  constructor
  · rintro ⟨paths, patterns, relative, path, candidate, entry, hpaths, hpatterns, hrelative, hpath,
      hcandidate, ⟨real, entries, hreal, hinside, hentries, hentry⟩, harrives⟩
    have hsolid := solid_of_phpRealpath hreal
    have hstarts : Starts host root package real :=
      ⟨paths, relative, path, candidate, hpaths, hrelative, hpath, hcandidate, hreal,
        within_iff.mp hinside⟩
    refine ⟨patterns, real, entries, hpatterns, hstarts, hentries, ?_⟩
    rcases (mem_candidateEntries hsolid hentries).mp hentry with ⟨hdir, rfl⟩ | ⟨hdir, q, hpasses,
      c, node, rfl, hlookup, -, hnolink, -⟩
    · rcases (arrives_iff hsolid).mp harrives with ⟨rfl, hadmissible, -⟩
      exact ⟨Or.inl ⟨hdir, rfl⟩, hadmissible⟩
    · rcases (arrives_iff ⟨node, hlookup, hnolink⟩).mp harrives with ⟨rfl, hadmissible, -⟩
      exact ⟨Or.inr ⟨hdir, q, c, rfl, hpasses⟩, hadmissible⟩
  · rintro ⟨patterns, real, entries, hpatterns, ⟨paths, relative, path, candidate, hpaths,
      hrelative, hpath, hcandidate, hreal, hinside⟩, hentries, hyields, hadmissible⟩
    have hsolid := solid_of_phpRealpath hreal
    rcases hadmissible.1 with ⟨readable, content, hlookup⟩
    have hfile : host.files.Solid file := ⟨_, hlookup, by simp⟩
    have hbelow : root <+: file := by
      rcases hyields with ⟨-, rfl⟩ | ⟨-, q, c, rfl, -⟩
      · exact hinside
      · rw [List.append_assoc]
        exact hinside.trans (List.prefix_append _ _)
    refine ⟨paths, patterns, relative, path, candidate, file, hpaths, hpatterns, hrelative, hpath,
      hcandidate, ⟨real, entries, hreal, within_iff.mpr hinside, hentries, ?_⟩,
      (arrives_iff hfile).mpr ⟨rfl, hadmissible, hbelow⟩⟩
    rw [mem_candidateEntries hsolid hentries]
    rcases hyields with hself | ⟨hdir, q, c, rfl, hpasses⟩
    · exact Or.inl hself
    · refine Or.inr ⟨hdir, q, hpasses, c, .regular readable content, rfl, hlookup, ?_, by simp,
        not_entryFilter_of_php hadmissible.2.1⟩
      rw [← Bool.not_eq_true, FileSystem.isDirectory_iff]
      rintro ⟨readable', hlookup'⟩
      cases hlookup.symm.trans hlookup'

end Leads

end Preload

end Polychrome
