import Mathlib.Data.List.Nodup
import TransitAudit.Files.PathName
import TransitAudit.Proofs.Text.Trim

/-! Path names by their parts. Paths are ordered by comparing part by part. Appending a name to the
path of a directory adds one part, and the name alone tells the extension. -/
namespace TransitAudit

/-! The order of parts -/

namespace PathPart

variable {a b c : PathPart}

theorem le_iff (a b : PathPart) :
    a.le b = true ↔ a.rank < b.rank ∨ a.rank = b.rank ∧ a.text ≤ b.text := by
  simp [le]

theorem le_trans (hab : a.le b = true) (hbc : b.le c = true) : a.le c = true := by
  rw [le_iff] at hab hbc ⊢
  rcases hab with hab | ⟨hab, htext⟩
  · exact .inl (by omega)
  · rcases hbc with hbc | ⟨hbc, htext'⟩
    · exact .inl (by omega)
    · exact .inr ⟨by omega, String.le_trans htext htext'⟩

theorem le_total (a b : PathPart) : a.le b = true ∨ b.le a = true := by
  rw [le_iff, le_iff]
  rcases Nat.lt_trichotomy a.rank b.rank with h | h | h
  · exact .inl (.inl h)
  · rcases String.le_total a.text b.text with htext | htext
    · exact .inl (.inr ⟨h, htext⟩)
    · exact .inr (.inr ⟨h.symm, htext⟩)
  · exact .inr (.inl h)

/-- Parts of one kind differ in their texts. -/
theorem eq_of_rank_of_text (hrank : a.rank = b.rank) (htext : a.text = b.text) : a = b := by
  cases a <;> cases b <;> cases hrank
  · rfl
  · rfl
  · rfl
  · exact congrArg name htext

theorem le_antisymm (hab : a.le b = true) (hba : b.le a = true) : a = b := by
  rw [le_iff] at hab hba
  rcases hab with hab | ⟨hrank, htext⟩
  · omega
  · rcases hba with hba | ⟨-, htext'⟩
    · omega
    · exact eq_of_rank_of_text hrank (String.le_antisymm htext htext')

end PathPart

namespace PathName

/-! The order of paths -/

section Order

theorem partsLe_cons (a b : PathPart) (as bs : List PathPart) :
    partsLe (a :: as) (b :: bs) = true ↔
      a = b ∧ partsLe as bs = true ∨ a ≠ b ∧ a.le b = true := by
  rw [partsLe]
  by_cases h : a = b <;> simp [h]

theorem partsLe_trans {as bs cs : List PathPart} (hab : partsLe as bs = true)
    (hbc : partsLe bs cs = true) : partsLe as cs = true := by
  induction as generalizing bs cs with
  | nil => rfl
  | cons a as ih =>
    cases bs with
    | nil => cases hab
    | cons b bs =>
      cases cs with
      | nil => cases hbc
      | cons c cs =>
        rw [partsLe_cons] at hab hbc ⊢
        -- the first place where two of the three differ decides
        rcases hab with ⟨rfl, hab⟩ | ⟨hne, hab⟩
        · rcases hbc with ⟨rfl, hbc⟩ | hbc
          · exact .inl ⟨rfl, ih hab hbc⟩
          · exact .inr hbc
        · rcases hbc with ⟨rfl, -⟩ | ⟨-, hbc⟩
          · exact .inr ⟨hne, hab⟩
          · refine .inr ⟨?_, PathPart.le_trans hab hbc⟩
            rintro rfl
            exact hne (PathPart.le_antisymm hab hbc)

theorem partsLe_total (as bs : List PathPart) :
    partsLe as bs = true ∨ partsLe bs as = true := by
  induction as generalizing bs with
  | nil => exact .inl rfl
  | cons a as ih =>
    cases bs with
    | nil => exact .inr rfl
    | cons b bs =>
      rw [partsLe_cons, partsLe_cons]
      by_cases hab : a = b
      · rcases ih bs with h | h
        · exact .inl (.inl ⟨hab, h⟩)
        · exact .inr (.inl ⟨hab.symm, h⟩)
      · rcases PathPart.le_total a b with h | h
        · exact .inl (.inr ⟨hab, h⟩)
        · exact .inr (.inr ⟨Ne.symm hab, h⟩)

theorem partsLe_antisymm {as bs : List PathPart} (hab : partsLe as bs = true)
    (hba : partsLe bs as = true) : as = bs := by
  induction as generalizing bs with
  | nil =>
    cases bs with
    | nil => rfl
    | cons b bs => cases hba
  | cons a as ih =>
    cases bs with
    | nil => cases hab
    | cons b bs =>
      rw [partsLe_cons] at hab hba
      rcases hab with ⟨rfl, hab⟩ | ⟨hne, hab⟩
      · rcases hba with ⟨-, hba⟩ | ⟨hne, -⟩
        · rw [ih hab hba]
        · exact absurd rfl hne
      · rcases hba with ⟨rfl, -⟩ | ⟨-, hba⟩
        · exact absurd rfl hne
        · exact absurd (PathPart.le_antisymm hab hba) hne

/-- One path comes before another one in the order of paths. -/
def Before (a b : String) : Prop :=
  le a b = true ∧ le b a = false

theorem before_of_le {a b : String} (hab : le a b = true) (hne : parts a ≠ parts b) :
    Before a b := by
  refine ⟨hab, ?_⟩
  rw [Bool.eq_false_iff]
  intro hba
  exact hne (partsLe_antisymm hab hba)

theorem mem_sorted {path : String} {paths : List String} : path ∈ sorted paths ↔ path ∈ paths :=
  List.mem_mergeSort

/-- Paths that differ in their parts are in strict order when they are sorted. -/
theorem pairwise_before_sorted {paths : List String} (h : (paths.map parts).Nodup) :
    (sorted paths).Pairwise Before := by
  have hle : (sorted paths).Pairwise fun a b => le a b = true := by
    apply List.pairwise_mergeSort
    · exact fun a b c => partsLe_trans
    · intro a b
      rw [Bool.or_eq_true]
      exact partsLe_total _ _
  have hperm : ((sorted paths).map parts).Perm (paths.map parts) :=
    (List.mergeSort_perm paths le).map parts
  have hne : (sorted paths).Pairwise fun a b => parts a ≠ parts b :=
    List.pairwise_map.mp (hperm.nodup_iff.mpr h)
  exact hle.imp₂ (fun a b hab hdiffer => before_of_le hab hdiffer) hne

end Order

/-! Names appended to a path -/

/-- What may stand for an entry of a directory. -/
def IsName (name : String) : Prop :=
  name ∉ ["", ".", ".."] ∧ '/' ∉ name.toList

section Names

variable {name : String}

theorem IsName.partOf? (h : IsName name) : partOf? name = some (.name name) := by
  have hkind := h.1
  simp only [List.mem_cons, List.not_mem_nil, or_false, not_or] at hkind
  simp [PathName.partOf?, hkind]

theorem IsName.isAbsolute (h : IsName name) : PathName.isAbsolute name = false := by
  rw [PathName.isAbsolute, decide_eq_false_iff_not]
  intro hhead
  exact h.2 (List.mem_of_head? hhead)

theorem IsName.segments (h : IsName name) : PathName.segments name = [name] := by
  rw [PathName.segments, Text.splitAt_eq_singleton_iff.mpr ⟨rfl, h.2⟩, List.map_singleton,
    String.ofList_toList]

theorem IsName.parts (h : IsName name) : PathName.parts name = [.name name] := by
  have hdot : name ≠ "." := fun he => h.1 (by simp [he])
  simp [PathName.parts, h.segments, h.isAbsolute, h.partOf?, hdot]

/-- A name behind a slash is one more part. -/
theorem parts_of_slash (h : IsName name) {directory path : String} {init : List Char}
    (hpath : path.toList = init ++ '/' :: name.toList)
    (hdirectory : directory.toList = init ∧ init ≠ [] ∨ directory.toList = init ++ ['/']) :
    parts path = parts directory ++ [.name name] := by
  have habsolute : isAbsolute path = isAbsolute directory := by
    rcases hdirectory with ⟨hdirectory, hne⟩ | hdirectory
    · obtain ⟨c, rest, rfl⟩ := List.exists_cons_of_ne_nil hne
      simp [isAbsolute, hpath, hdirectory]
    · cases init <;> simp [isAbsolute, hpath, hdirectory]
  have hsegments : segments path = (Text.splitAt '/' init).map String.ofList ++ [name] := by
    rw [segments, hpath, Text.splitAt_append_cons, List.map_append]
    exact congrArg _ h.segments
  have hinit : segments directory = (Text.splitAt '/' init).map String.ofList ∨
      segments directory = (Text.splitAt '/' init).map String.ofList ++ [""] := by
    rcases hdirectory with ⟨hdirectory, -⟩ | hdirectory
    · exact .inl (by rw [segments, hdirectory])
    · right
      rw [segments, hdirectory, Text.splitAt_append_cons, List.map_append]
      rfl
  have hne : (Text.splitAt '/' init).map String.ofList ≠ [] := by
    simp [Text.splitAt_ne_nil]
  have hhead : (segments path).head? = (segments directory).head? := by
    rcases hinit with hinit | hinit <;>
      rw [hsegments, hinit] <;> simp [List.head?_append_of_ne_nil _ hne]
  have hempty : partOf? "" = none := rfl
  have hnamed : (segments path).filterMap partOf? =
      (segments directory).filterMap partOf? ++ [.name name] := by
    rcases hinit with hinit | hinit <;> rw [hsegments, hinit] <;> simp [h.partOf?, hempty]
  unfold parts
  rw [habsolute, hhead, hnamed]
  dsimp only
  split
  · rfl
  · split <;> rfl

theorem parts_join (h : IsName name) (directory : String) :
    parts (join directory name) = parts directory ++ [.name name] := by
  rw [join, h.isAbsolute, if_neg Bool.false_ne_true]
  by_cases hempty : directory = ""
  · subst hempty
    have hparts : parts "" = [] := by with_unfolding_all rfl
    rw [hparts]
    exact h.parts
  · have hne : directory.toList ≠ [] := mt String.toList_eq_nil_iff.mp hempty
    split
    · -- the directory ends in a slash
      rename_i hlast
      have hlast : directory.toList.getLast? = some '/' := by simpa [hempty] using hlast
      obtain ⟨init, hinit⟩ := List.getLast?_eq_some_iff.mp hlast
      have hpath : (directory ++ name).toList = init ++ '/' :: name.toList := by simp [hinit]
      exact parts_of_slash h hpath (.inr hinit)
    · have hpath : (directory ++ "/" ++ name).toList = directory.toList ++ '/' :: name.toList := by
        simp
      exact parts_of_slash h hpath (.inl ⟨rfl, hne⟩)

/-- The path that names below a directory lead to. -/
def descend (directory : String) (names : List String) : String :=
  names.foldl join directory

theorem parts_descend {names : List String} (h : ∀ name ∈ names, IsName name)
    (directory : String) :
    parts (descend directory names) = parts directory ++ names.map .name := by
  induction names generalizing directory with
  | nil => simp [descend]
  | cons name names ih =>
    obtain ⟨hname, hnames⟩ := List.forall_mem_cons.mp h
    have hrest := ih hnames (join directory name)
    rw [parts_join hname, List.append_assoc] at hrest
    exact hrest

/-! Extensions -/

/-- What follows the last dot, if there is something before that dot. -/
theorem extensionOf?_eq_some_iff {cs extension : List Char} :
    extensionOf? cs = some extension ↔
      ∃ stem, cs = stem ++ '.' :: extension ∧ stem ≠ [] ∧ '.' ∉ extension := by
  unfold extensionOf?
  constructor
  · intro h
    split at h
    · rename_i hdot
      cases h
      cases cs with
      | nil => cases hdot
      | cons c tail =>
        -- the dot that counts is the last one, the first one from the end
        rw [List.tail_cons] at hdot
        obtain ⟨after, before, hreverse, hafter⟩ :=
          List.eq_append_cons_of_mem (List.mem_reverse.mpr hdot)
        have htail : tail = before.reverse ++ '.' :: after.reverse := by
          rw [← List.reverse_reverse tail, hreverse]
          simp
        have hextension : '.' ∉ after.reverse := by simpa using hafter
        rw [htail, ← List.cons_append, Text.afterLast_append_cons hextension]
        exact ⟨c :: before.reverse, rfl, List.cons_ne_nil _ _, hextension⟩
    · cases h
  · rintro ⟨stem, rfl, hne, hextension⟩
    obtain ⟨c, stem, rfl⟩ := List.exists_cons_of_ne_nil hne
    have hdot : '.' ∈ ((c :: stem) ++ '.' :: extension).tail := by simp
    rw [if_pos hdot, Text.afterLast_append_cons hextension]

/-- The name alone tells the extension. -/
theorem extension?_descend (h : IsName name) {names : List String}
    (hnames : ∀ name ∈ names, IsName name) (directory : String) :
    extension? (descend directory (names ++ [name])) =
      (extensionOf? name.toList).map String.ofList := by
  have hall : ∀ n ∈ names ++ [name], IsName n :=
    List.forall_mem_append.mpr ⟨hnames, List.forall_mem_singleton.mpr h⟩
  have hname : name? (descend directory (names ++ [name])) = some name := by
    rw [name?, parts_descend hall, List.map_append, ← List.append_assoc, List.map_singleton,
      List.getLast?_concat]
  rw [extension?, hname]
  rfl

end Names

end PathName

end TransitAudit
