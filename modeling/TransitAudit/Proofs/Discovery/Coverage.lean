import TransitAudit.Discovery.Walk
import TransitAudit.Proofs.Files.PathNames
import TransitAudit.Proofs.Files.Walk

/-! Which documents are found in a tree of directories and files. They are those with an accepted
extension that lie deep enough, each once and in the order of paths. The largest depth is no limit
to what is looked at but leaves out everything. -/
namespace TransitAudit

/-! Trees without links -/

namespace FileEntry

/-- To prove something of every entry, it may be used of what a directory holds. -/
theorem entryInduction {P : FileEntry → Prop} (file : ∀ contents, P (.file contents))
    (link : ∀ target, P (.link target))
    (directory : ∀ entries : List (String × FileEntry),
      (∀ entry ∈ entries, P entry.2) → P (.directory entries)) (e : FileEntry) : P e := by
  refine @FileEntry.rec P (fun entries => ∀ entry ∈ entries, P entry.2) (fun entry => P entry.2)
    file link directory ?_ ?_ ?_ e
  · simp
  · exact fun entry entries hentry hentries => List.forall_mem_cons.mpr ⟨hentry, hentries⟩
  · exact fun _ _ h => h

/-- A tree of directories and regular files. The names in each directory differ and can be parts of
a path. -/
structure Plain (e : FileEntry) : Prop where
  noLink : ∀ names target, e.at? names ≠ some (.link target)
  distinct : ∀ names entries, e.at? names = some (.directory entries) →
    (entries.map (·.1)).Nodup
  named : ∀ names entries, e.at? names = some (.directory entries) →
    ∀ entry ∈ entries, PathName.IsName entry.1

variable {e : FileEntry} {entries : List (String × FileEntry)} {name : String}

theorem lookup_eq_some_iff_mem (h : (entries.map (·.1)).Nodup) :
    entries.lookup name = some e ↔ (name, e) ∈ entries := by
  induction entries with
  | nil => simp
  | cons entry entries ih =>
    obtain ⟨n, child⟩ := entry
    rw [List.map_cons, List.nodup_cons] at h
    by_cases hn : name = n
    · subst hn
      -- the name does not occur again
      have hnone : (name, e) ∉ entries := by
        intro hmem
        have hname := List.mem_map_of_mem (f := (·.1)) hmem
        exact h.1 hname
      simp [hnone, eq_comm]
    · have hne : (name == n) = false := beq_eq_false_iff_ne.mpr hn
      rw [List.lookup_cons, hne, ih h.2]
      simp [hn]

theorem at?_cons (hdistinct : (entries.map (·.1)).Nodup) (h : (name, e) ∈ entries)
    (names : List String) : (directory entries).at? (name :: names) = e.at? names := by
  have hchild : (directory entries).child? name = some e := (lookup_eq_some_iff_mem hdistinct).mpr h
  rw [at?, hchild, Option.bind_some]

theorem Plain.distinct_entries (h : (directory entries).Plain) : (entries.map (·.1)).Nodup :=
  h.distinct [] entries rfl

theorem Plain.isName (h : (directory entries).Plain) (hentry : (name, e) ∈ entries) :
    PathName.IsName name :=
  h.named [] entries rfl _ hentry

/-- What a directory of such a tree holds is such a tree. -/
theorem Plain.of_mem (h : (directory entries).Plain) (hentry : (name, e) ∈ entries) : e.Plain := by
  have hat (names : List String) := at?_cons h.distinct_entries hentry names
  constructor
  · intro names target
    rw [← hat]
    exact h.noLink _ target
  · intro names es hes
    rw [← hat] at hes
    exact h.distinct _ es hes
  · intro names es hes
    rw [← hat] at hes
    exact h.named _ es hes

theorem plain_file (contents : ByteArray) : (file contents).Plain := by
  have hat {names : List String} {e : FileEntry} (h : (file contents).at? names = some e) :
      e = file contents := by
    cases names with
    | nil => exact (Option.some.inj h).symm
    | cons name names => cases h
  constructor
  · intro names target h
    cases hat h
  · intro names entries h
    cases hat h
  · intro names entries h
    cases hat h

theorem plain_directory (hdistinct : (entries.map (·.1)).Nodup)
    (h : ∀ entry ∈ entries, PathName.IsName entry.1 ∧ entry.2.Plain) :
    (directory entries).Plain := by
  -- names lead to the directory itself or into one of its entries
  have hat {names : List String} {e : FileEntry} (he : (directory entries).at? names = some e) :
      names = [] ∧ directory entries = e ∨
        ∃ name names' child, (name, child) ∈ entries ∧ child.at? names' = some e := by
    cases names with
    | nil => exact .inl ⟨rfl, Option.some.inj he⟩
    | cons name names =>
      obtain ⟨child, hchild, he⟩ := Option.bind_eq_some_iff.mp he
      exact .inr ⟨name, names, child, (lookup_eq_some_iff_mem hdistinct).mp hchild, he⟩
  constructor
  · intro names target he
    rcases hat he with ⟨-, he⟩ | ⟨name, names', child, hmem, he⟩
    · cases he
    · exact (h _ hmem).2.noLink _ _ he
  · intro names es he
    rcases hat he with ⟨-, ⟨⟩⟩ | ⟨name, names', child, hmem, he⟩
    · exact hdistinct
    · exact (h _ hmem).2.distinct _ _ he
  · intro names es he
    rcases hat he with ⟨-, ⟨⟩⟩ | ⟨name, names', child, hmem, he⟩
    · exact fun entry hentry => (h entry hentry).1
    · exact (h _ hmem).2.named _ _ he

/-- The names that lead to something in such a tree can be parts of a path. -/
theorem Plain.isName_of_at? {names : List String} {found : FileEntry} (h : e.Plain)
    (hat : e.at? names = some found) : ∀ name ∈ names, PathName.IsName name := by
  induction names generalizing e with
  | nil => simp
  | cons name names ih =>
    obtain ⟨child, hchild, hrest⟩ := Option.bind_eq_some_iff.mp hat
    cases e with
    | file contents => cases hchild
    | link target => cases hchild
    | directory entries =>
      have hmem := (lookup_eq_some_iff_mem h.distinct_entries).mp hchild
      exact List.forall_mem_cons.mpr ⟨h.isName hmem, ih (h.of_mem hmem) hrest⟩

/-- A directory itself is no file. -/
theorem ne_nil_of_at? {names : List String} {contents : ByteArray} (he : e.isDirectory = true)
    (hat : e.at? names = some (.file contents)) : names ≠ [] := by
  rintro rfl
  rw [Option.some.inj hat] at he
  cases he

end FileEntry

/-! What a walk finds -/

namespace Walk

variable {w : Walk} {e : FileEntry} {file : String}

theorem within_eq_flatMap (w : Walk) (links : Nat) (above : List (List String))
    (location : List String) (path : String) (depth : Nat) (entries : List (String × FileEntry)) :
    w.within links above location path depth entries = entries.flatMap fun entry =>
      if w.reaches (depth + 1) then
        w.below links above (location ++ [entry.1]) (PathName.join path entry.1) (depth + 1) entry.2
      else [] := by
  induction entries with
  | nil => rw [within, List.flatMap_nil]
  | cons entry entries ih => rw [within, ih, List.flatMap_cons]

theorem reaches_of_le {m n : Nat} (hmn : m ≤ n) (h : w.reaches n = true) :
    w.reaches m = true := by
  unfold reaches at h ⊢
  split
  · rename_i d hd
    rw [hd] at h
    exact decide_eq_true (hmn.trans (of_decide_eq_true h))
  · rfl

theorem leavesOut_of_no_lines (hlines : w.selection.lines = []) (path : String)
    (isDirectory : Bool) : w.selection.leavesOut path isDirectory = false := by
  simp [Selection.leavesOut, Selection.deciding?, hlines]

/-- The regular files at or below an entry are found that have an accepted extension and are not too
deep. -/
theorem mem_below_iff (hlines : w.selection.lines = []) (he : e.Plain) (links : Nat)
    (above : List (List String)) (location : List String) (path : String) (depth : Nat) :
    file ∈ w.below links above location path depth e ↔
      ∃ names contents, e.at? names = some (.file contents) ∧
        (names = [] ∨ w.reaches (depth + names.length) = true) ∧
        w.discovery.hasExtension file = true ∧ file = PathName.descend path names := by
  induction e using FileEntry.entryInduction generalizing above location path depth with
  | file contents =>
    rw [below, findsFile, leavesOut_of_no_lines hlines, Bool.not_false, Bool.true_and]
    constructor
    · intro h
      split at h
      · obtain rfl := List.mem_singleton.mp h
        exact ⟨[], contents, rfl, .inl rfl, by assumption, rfl⟩
      · cases h
    · rintro ⟨names, contents', hat, -, hext, rfl⟩
      cases names with
      | nil =>
        rw [PathName.descend, List.foldl_nil] at hext ⊢
        rw [if_pos hext]
        exact List.mem_singleton_self _
      | cons name names => cases hat
  | link target => exact absurd rfl (he.noLink [] target)
  | directory entries ih =>
    rw [below, leavesOut_of_no_lines hlines, if_neg Bool.false_ne_true, within_eq_flatMap,
      List.mem_flatMap]
    constructor
    · rintro ⟨⟨name, child⟩, hmem, hfile⟩
      split at hfile
      · rename_i hreach
        obtain ⟨names, contents, hat, hdeep, hext, rfl⟩ :=
          (ih _ hmem (he.of_mem hmem) _ _ _ _).mp hfile
        refine ⟨name :: names, contents, ?_, .inr ?_, hext, rfl⟩
        · rw [FileEntry.at?_cons he.distinct_entries hmem]
          exact hat
        · rw [List.length_cons, Nat.add_comm names.length, ← Nat.add_assoc]
          rcases hdeep with rfl | hdeep
          · exact hreach
          · exact hdeep
      · cases hfile
    · rintro ⟨names, contents, hat, hdeep, hext, rfl⟩
      cases names with
      | nil => cases hat
      | cons name names =>
        obtain ⟨child, hchild, hat⟩ := Option.bind_eq_some_iff.mp hat
        have hmem := (FileEntry.lookup_eq_some_iff_mem he.distinct_entries).mp hchild
        have hdeep : w.reaches (depth + 1 + names.length) = true := by
          rw [Nat.add_assoc, Nat.add_comm 1]
          exact hdeep.resolve_left (List.cons_ne_nil _ _)
        refine ⟨(name, child), hmem, ?_⟩
        rw [if_pos (reaches_of_le (Nat.le_add_right _ _) hdeep)]
        exact (ih _ hmem (he.of_mem hmem) _ _ _ _).mpr
          ⟨names, contents, hat, .inr hdeep, hext, rfl⟩

theorem parts_of_mem_below (hlines : w.selection.lines = []) (he : e.Plain) {links : Nat}
    {above : List (List String)} {location : List String} {path : String} {depth : Nat}
    (h : file ∈ w.below links above location path depth e) :
    ∃ names : List String, PathName.parts file = PathName.parts path ++ names.map .name := by
  obtain ⟨names, contents, hat, -, -, rfl⟩ := (mem_below_iff hlines he _ _ _ _ _).mp h
  exact ⟨names, PathName.parts_descend (he.isName_of_at? hat) path⟩

/-- No file is found twice, and not even two of which the paths have the same parts. -/
theorem nodup_parts_below (hlines : w.selection.lines = []) (he : e.Plain) (links : Nat)
    (above : List (List String)) (location : List String) (path : String) (depth : Nat) :
    ((w.below links above location path depth e).map PathName.parts).Nodup := by
  induction e using FileEntry.entryInduction generalizing above location path depth with
  | file contents =>
    rw [below]
    split <;> simp
  | link target => exact absurd rfl (he.noLink [] target)
  | directory entries ih =>
    rw [below, leavesOut_of_no_lines hlines, if_neg Bool.false_ne_true, within_eq_flatMap,
      List.map_flatMap, List.nodup_flatMap]
    constructor
    · intro entry hentry
      split
      · exact ih entry hentry (he.of_mem hentry) _ _ _ _
      · simp
    · -- what is below different names differs in the part behind the directory
      apply (List.pairwise_map.mp he.distinct_entries).imp_of_mem
      intro first second hfirst hsecond hne parts hp hq
      dsimp only at hp hq
      split at hp
      · rename_i hreach
        rw [if_pos hreach] at hq
        obtain ⟨file, hfile, rfl⟩ := List.mem_map.mp hp
        obtain ⟨file', hfile', heq⟩ := List.mem_map.mp hq
        obtain ⟨names, hnames⟩ := parts_of_mem_below hlines (he.of_mem hfirst) hfile
        obtain ⟨names', hnames'⟩ := parts_of_mem_below hlines (he.of_mem hsecond) hfile'
        rw [hnames, hnames', PathName.parts_join (he.isName hfirst),
          PathName.parts_join (he.isName hsecond), List.append_assoc, List.append_assoc,
          List.append_cancel_left_eq] at heq
        exact hne (PathPart.name.inj (List.cons.inj heq).1).symm
      · simp at hp

end Walk

/-! Discovery -/

namespace Discovery

/-- A search for documents with some extensions, without patterns. -/
def search (extensions : List String) (depth : Option UInt64) (followLinks : Bool) : Discovery :=
  ((default.withExtensions extensions).withMaxDepth depth).withFollowLinks followLinks

/-- The name ends in one of the extensions, in any case, behind a dot that does not begin it. Dots
in front of an extension do not count. -/
def Accepts (extensions : List String) (name : String) : Prop :=
  ∃ stem extension, name.toList = stem ++ '.' :: extension ∧ stem ≠ [] ∧ '.' ∉ extension ∧
    ∃ accepted ∈ extensions, Text.lowercase (String.ofList extension) =
      Text.lowercase (String.ofList (accepted.toList.dropWhile (· = '.')))

/-- The names lead to a document in a directory at most so deep below the root. -/
def Document (root : FileEntry) (extensions : List String) (depth : Option UInt64)
    (names : List String) : Prop :=
  ∃ directories name contents, names = directories ++ [name] ∧
    root.at? names = some (.file contents) ∧ Accepts extensions name ∧
    ∀ limit, depth = some limit → directories.length ≤ limit.toNat

variable {extensions : List String} {depth : Option UInt64} {followLinks : Bool}

theorem hasExtension_search_iff {directory name : String} {names : List String}
    (hnames : ∀ n ∈ names, PathName.IsName n) (hname : PathName.IsName name) :
    (search extensions depth followLinks).hasExtension
      (PathName.descend directory (names ++ [name])) = true ↔ Accepts extensions name := by
  have hextensions : (search extensions depth followLinks).extensions =
      extensions.map normalExtension :=
    rfl
  rw [hasExtension, PathName.extension?_descend hname hnames, hextensions]
  constructor
  · intro h
    cases hext : PathName.extensionOf? name.toList with
    | none =>
      rw [hext] at h
      cases h
    | some extension =>
      rw [hext] at h
      obtain ⟨accepted, hmem, heq⟩ := List.mem_map.mp (List.contains_iff_mem.mp h)
      obtain ⟨stem, hstem, hne, hdot⟩ := PathName.extensionOf?_eq_some_iff.mp hext
      exact ⟨stem, extension, hstem, hne, hdot, accepted, hmem, heq.symm⟩
  · rintro ⟨stem, extension, hstem, hne, hdot, accepted, hmem, heq⟩
    rw [PathName.extensionOf?_eq_some_iff.mpr ⟨stem, hstem, hne, hdot⟩]
    exact List.contains_iff_mem.mpr (List.mem_map.mpr ⟨accepted, hmem, heq.symm⟩)

/-- The only depth behind which there is none that is larger. -/
def largestDepth : UInt64 :=
  18446744073709551615

section Depth

variable {w : Walk}

theorem toNat_add_one {limit : UInt64} (h : limit ≠ largestDepth) :
    (limit + 1).toNat = limit.toNat + 1 := by
  have hne : limit.toNat ≠ 18446744073709551615 := by
    intro he
    exact h (UInt64.toNat_inj.mp he)
  have hlt := limit.toNat_lt
  rw [UInt64.toNat_add]
  simp
  omega

theorem reaches_iff (hdepth : w.discovery.maxDepth ≠ some largestDepth) (level : Nat) :
    w.reaches (level + 1) = true ↔
      ∀ limit, w.discovery.maxDepth = some limit → level ≤ limit.toNat := by
  unfold Walk.reaches
  cases hmax : w.discovery.maxDepth with
  | none => simp
  | some limit =>
    have hlimit : limit ≠ largestDepth := by
      rintro rfl
      exact hdepth hmax
    simp [toNat_add_one hlimit]

/-- Behind the largest depth counting begins again. -/
theorem reaches_of_largestDepth (hdepth : w.discovery.maxDepth = some largestDepth)
    (level : Nat) : w.reaches (level + 1) = false := by
  have hnext : (largestDepth + 1).toNat = 0 := rfl
  unfold Walk.reaches
  rw [hdepth]
  simp [hnext]

end Depth

section Directory

variable {fs : FileSystem} {path : String} {found : FoundEntry}

/-- The walk without patterns. -/
def searchWalk (extensions : List String) (depth : Option UInt64) (followLinks : Bool)
    (fs : FileSystem) (path : String) : Walk :=
  ⟨search extensions depth followLinks, ⟨path, []⟩, fs⟩

theorem discover_search (hresolve : fs.resolve path = .ok found)
    (hdirectory : found.entry.isDirectory = true) :
    (search extensions depth followLinks).discover fs path =
      .ok (PathName.sorted ((searchWalk extensions depth followLinks fs path).below
        fs.root.directories [] found.location path 0 found.entry)) := by
  obtain ⟨location, entry⟩ := found
  cases entry with
  | file contents => cases hdirectory
  | link target => cases hdirectory
  | directory entries =>
    rw [Walk.below, Walk.leavesOut_of_no_lines rfl, if_neg Bool.false_ne_true, discover, hresolve]
    rfl

theorem mem_below_search_iff (hdirectory : found.entry.isDirectory = true)
    (hplain : found.entry.Plain) (hdepth : depth ≠ some largestDepth) {file : String} :
    file ∈ (searchWalk extensions depth followLinks fs path).below
        fs.root.directories [] found.location path 0 found.entry ↔
      ∃ names, Document found.entry extensions depth names ∧
        file = PathName.descend path names := by
  have hreaches (level : Nat) :
      (searchWalk extensions depth followLinks fs path).reaches (0 + (level + 1)) = true ↔
        ∀ limit, depth = some limit → level ≤ limit.toNat := by
    rw [Nat.zero_add]
    exact reaches_iff hdepth level
  rw [Walk.mem_below_iff rfl hplain]
  constructor
  · rintro ⟨names, contents, hat, hdeep, hext, rfl⟩
    rcases List.eq_nil_or_concat' names with rfl | ⟨directories, name, rfl⟩
    · exact absurd rfl (FileEntry.ne_nil_of_at? hdirectory hat)
    · obtain ⟨hnames, hname⟩ := List.forall_mem_append.mp (hplain.isName_of_at? hat)
      have haccepts := (hasExtension_search_iff hnames (hname name List.mem_cons_self)).mp hext
      have hdeep := hdeep.resolve_left (List.append_ne_nil_of_right_ne_nil _ (List.cons_ne_nil _ _))
      rw [List.length_append, List.length_singleton, hreaches] at hdeep
      exact ⟨_, ⟨directories, name, contents, rfl, hat, haccepts, hdeep⟩, rfl⟩
  · rintro ⟨_, ⟨directories, name, contents, rfl, hat, haccepts, hdeep⟩, rfl⟩
    obtain ⟨hnames, hname⟩ := List.forall_mem_append.mp (hplain.isName_of_at? hat)
    refine ⟨_, contents, hat, .inr ?_, ?_, rfl⟩
    · rw [List.length_append, List.length_singleton, hreaches]
      exact hdeep
    · exact (hasExtension_search_iff hnames (hname name List.mem_cons_self)).mpr haccepts

/-- Behind the largest depth not even the root is looked into. -/
theorem below_largestDepth (hdirectory : found.entry.isDirectory = true)
    (hplain : found.entry.Plain) :
    (searchWalk extensions (some largestDepth) followLinks fs path).below
      fs.root.directories [] found.location path 0 found.entry = [] := by
  rw [List.eq_nil_iff_forall_not_mem]
  intro file hfile
  obtain ⟨names, contents, hat, hdeep, -, -⟩ := (Walk.mem_below_iff rfl hplain _ _ _ _ _).mp hfile
  obtain ⟨name, names, rfl⟩ := List.exists_cons_of_ne_nil (FileEntry.ne_nil_of_at? hdirectory hat)
  have hnone := reaches_of_largestDepth
    (w := searchWalk extensions (some largestDepth) followLinks fs path) rfl names.length
  have hdeep := hdeep.resolve_left (List.cons_ne_nil _ _)
  rw [Nat.zero_add, List.length_cons, hnone] at hdeep
  cases hdeep

/-- Larger depths, up to none at all. -/
def Deeper (depth deeper : Option UInt64) : Prop :=
  ∀ limit, deeper = some limit → ∃ smaller, depth = some smaller ∧ smaller ≤ limit

theorem Document.of_deeper {root : FileEntry} {deeper : Option UInt64} {names : List String}
    (hdeeper : Deeper depth deeper) (h : Document root extensions depth names) :
    Document root extensions deeper names := by
  obtain ⟨directories, name, contents, hnames, hat, haccepts, hdeep⟩ := h
  refine ⟨directories, name, contents, hnames, hat, haccepts, fun limit hlimit => ?_⟩
  obtain ⟨smaller, hsmaller, hle⟩ := hdeeper limit hlimit
  exact (hdeep smaller hsmaller).trans (UInt64.le_iff_toNat_le.mp hle)

/-- In a tree of directories and regular files, the documents in directories at most so deep below
the root are found, each once and in the order of paths, and so no fewer at a larger depth. At the
largest depth, though, nothing is found. -/
theorem discover_finds_documents (fs : FileSystem) (path : String) (found : FoundEntry)
    (hresolve : fs.resolve path = .ok found) (hdirectory : found.entry.isDirectory = true)
    (hplain : found.entry.Plain) (extensions : List String) (depth : Option UInt64)
    (followLinks : Bool) :
    (depth ≠ some largestDepth → ∃ files,
      (search extensions depth followLinks).discover fs path = .ok files ∧
      files.Pairwise PathName.Before ∧
      (∀ file, file ∈ files ↔ ∃ names, Document found.entry extensions depth names ∧
        file = PathName.descend path names) ∧
      ∀ deeper, Deeper depth deeper → deeper ≠ some largestDepth → ∃ more,
        (search extensions deeper followLinks).discover fs path = .ok more ∧
        files ⊆ more ∧ files.length ≤ more.length) ∧
    (search extensions (some largestDepth) followLinks).discover fs path = .ok [] := by
  have hnodup (depth : Option UInt64) :=
    Walk.nodup_parts_below (w := searchWalk extensions depth followLinks fs path) rfl hplain
      fs.root.directories [] found.location path 0
  constructor
  · intro hdepth
    refine ⟨_, discover_search hresolve hdirectory, PathName.pairwise_before_sorted (hnodup depth),
      fun file => ?_, fun deeper hdeeper hlimit => ⟨_, discover_search hresolve hdirectory, ?_⟩⟩
    · rw [PathName.mem_sorted]
      exact mem_below_search_iff hdirectory hplain hdepth
    · have hsubset : PathName.sorted ((searchWalk extensions depth followLinks fs path).below
            fs.root.directories [] found.location path 0 found.entry) ⊆
          PathName.sorted ((searchWalk extensions deeper followLinks fs path).below
            fs.root.directories [] found.location path 0 found.entry) := by
        intro file hfile
        rw [PathName.mem_sorted, mem_below_search_iff hdirectory hplain hdepth] at hfile
        rw [PathName.mem_sorted, mem_below_search_iff hdirectory hplain hlimit]
        obtain ⟨names, hdocument, rfl⟩ := hfile
        exact ⟨names, hdocument.of_deeper hdeeper, rfl⟩
      refine ⟨hsubset, List.Nodup.length_le_of_subset ?_ hsubset⟩
      exact (List.mergeSort_perm _ _).nodup_iff.mpr (hnodup depth).of_map
  · rw [discover_search hresolve hdirectory, below_largestDepth hdirectory hplain,
      PathName.sorted, List.mergeSort_nil]

/-- A document in the root and one in a directory. -/
def nestedDocuments : FileSystem :=
  ⟨.directory [("a.xml", .file .empty), ("d", .directory [("b.XML", .file .empty)])], []⟩

theorem plain_nestedDocuments : nestedDocuments.root.Plain := by
  have hinner : (FileEntry.directory [("b.XML", .file .empty)]).Plain := by
    refine FileEntry.plain_directory (by decide) (List.forall_mem_singleton.mpr ⟨?_, ?_⟩)
    · exact ⟨by decide, by decide⟩
    · exact FileEntry.plain_file _
  refine FileEntry.plain_directory (by decide) (List.forall_mem_cons.mpr
    ⟨⟨⟨by decide, by decide⟩, FileEntry.plain_file _⟩, List.forall_mem_singleton.mpr
      ⟨⟨by decide, by decide⟩, hinner⟩⟩)

theorem resolve_nestedDocuments :
    nestedDocuments.resolve "." = .ok ⟨[], nestedDocuments.root⟩ := by
  have hsegments : PathName.segments "." = ["."] := by with_unfolding_all rfl
  rw [FileSystem.resolve_of_relative rfl (by decide) (by decide) (by decide)
    (by with_unfolding_all rfl) hsegments, FileSystem.follow_dot _ _ rfl, FileSystem.follow_nil]

theorem document_nestedDocuments {depth : Option UInt64}
    (hdepth : ∀ limit, depth = some limit → 1 ≤ limit.toNat) :
    Document nestedDocuments.root [".Xml"] depth ["d", "b.XML"] := by
  have haccepts : Accepts [".Xml"] "b.XML" :=
    ⟨['b'], ['X', 'M', 'L'], by with_unfolding_all rfl, by decide, by decide, ".Xml", by decide,
      by decide +kernel⟩
  exact ⟨["d"], "b.XML", _, rfl, rfl, haccepts, hdepth⟩

/-- The document in the directory is one level below the root. -/
theorem discover_finds_documents_of_nested : ∃ files,
    (search [".Xml"] (some 1) false).discover nestedDocuments "." = .ok files ∧
      "./d/b.XML" ∈ files := by
  obtain ⟨hfinds, -⟩ := discover_finds_documents nestedDocuments "." _ resolve_nestedDocuments rfl
    plain_nestedDocuments [".Xml"] (some 1) false
  obtain ⟨files, hfiles, -, hmem, -⟩ := hfinds (by decide)
  refine ⟨files, hfiles, (hmem _).mpr ⟨["d", "b.XML"], document_nestedDocuments ?_, ?_⟩⟩
  · rintro limit ⟨⟩
    decide
  · with_unfolding_all rfl

/-- At the largest depth it is not found, and neither is anything else. -/
theorem document_missed_at_largest_depth :
    Document nestedDocuments.root [".Xml"] (some largestDepth) ["d", "b.XML"] ∧
      (search [".Xml"] (some largestDepth) false).discover nestedDocuments "." = .ok [] := by
  constructor
  · apply document_nestedDocuments
    rintro limit ⟨⟩
    decide
  · have hnone := @below_largestDepth [".Xml"] false nestedDocuments "."
      ⟨[], nestedDocuments.root⟩ rfl plain_nestedDocuments
    rw [discover_search resolve_nestedDocuments rfl, hnone, PathName.sorted, List.mergeSort_nil]

end Directory

end Discovery

end TransitAudit
