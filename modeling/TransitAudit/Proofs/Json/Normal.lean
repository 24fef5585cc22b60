import Mathlib.Order.Basic
import Mathlib.Data.List.Basic
import Mathlib.Data.String.Basic
import TransitAudit.Json.Value

/-! Values in normal form: objects have their members in the order of names, each name once, and
every number is finite. The normal form of a value is in normal form, and a value in normal form is
its own. -/
namespace TransitAudit.Json

/-- Members in the order of their names, each name once. -/
def Members.Ordered (ms : Members) : Prop :=
  (ms.map (·.1)).Pairwise (· < ·)

mutual

/-- A value in normal form, throughout. -/
def Value.IsNormal : Value → Prop
  | .null => True
  | .bool _ => True
  | .integer _ => True
  | .real x => x.isFinite = true
  | .string _ => True
  | .array vs => ElementsNormal vs
  | .object ms => Members.Ordered ms ∧ MembersNormal ms
  | .unreadable => False

def ElementsNormal : List Value → Prop
  | [] => True
  | v :: vs => v.IsNormal ∧ ElementsNormal vs

def MembersNormal : List (String × Value) → Prop
  | [] => True
  | (_, v) :: ms => v.IsNormal ∧ MembersNormal ms

end

variable {found ms out : Members} {name : String} {value : Value} {vs ws : List Value}

/-! Setting a member -/

namespace Members

theorem ordered_cons {m : String × Value} :
    Ordered (m :: ms) ↔ (∀ x ∈ ms, m.1 < x.1) ∧ Ordered ms := by
  rw [Ordered, List.map_cons, List.pairwise_cons, List.forall_mem_map]
  rfl

theorem ordered_append : Ordered (found ++ ms) ↔
    Ordered found ∧ Ordered ms ∧ ∀ x ∈ found, ∀ y ∈ ms, x.1 < y.1 := by
  simp [Ordered, List.pairwise_append]

/-- A name behind all others is put at the end. -/
theorem insert_of_forall_lt (h : ∀ x ∈ found, x.1 < name) :
    found.insert name value = found ++ [(name, value)] := by
  induction found with
  | nil => rfl
  | cons m found ih =>
    obtain ⟨hm, hrest⟩ := List.forall_mem_cons.mp h
    rw [insert, if_neg (ne_of_gt hm), if_neg (lt_asymm hm), ih hrest]
    rfl

theorem mem_insert {x : String × Value} (h : x ∈ found.insert name value) :
    x = (name, value) ∨ x ∈ found := by
  induction found with
  | nil => exact .inl (List.mem_singleton.mp h)
  | cons m found ih =>
    rw [insert] at h
    split at h
    · exact (List.mem_cons.mp h).imp_right (List.mem_cons_of_mem _)
    · split at h
      · exact List.mem_cons.mp h
      · rcases List.mem_cons.mp h with rfl | h
        · exact .inr List.mem_cons_self
        · exact (ih h).imp_right (List.mem_cons_of_mem _)

theorem Ordered.insert (h : found.Ordered) : (found.insert name value).Ordered := by
  induction found with
  | nil => exact ordered_cons.mpr ⟨List.forall_mem_nil _, h⟩
  | cons m found ih =>
    obtain ⟨hm, hfound⟩ := ordered_cons.mp h
    rw [Members.insert]
    split
    case isTrue heq => exact ordered_cons.mpr ⟨heq ▸ hm, hfound⟩
    case isFalse hne =>
      split
      case isTrue hlt =>
        refine ordered_cons.mpr ⟨List.forall_mem_cons.mpr ⟨hlt, fun x hx => ?_⟩, h⟩
        exact lt_trans hlt (hm x hx)
      case isFalse hge =>
        refine ordered_cons.mpr ⟨fun x hx => ?_, ih hfound⟩
        rcases mem_insert hx with rfl | hx
        · exact lt_of_le_of_ne (not_lt.mp hge) (Ne.symm hne)
        · exact hm x hx

end Members

theorem elementsNormal_iff : ElementsNormal vs ↔ ∀ v ∈ vs, v.IsNormal := by
  induction vs with
  | nil => simp [ElementsNormal]
  | cons v vs ih => rw [ElementsNormal, ih, List.forall_mem_cons]

theorem membersNormal_iff : MembersNormal ms ↔ ∀ m ∈ ms, m.2.IsNormal := by
  induction ms with
  | nil => simp [MembersNormal]
  | cons m ms ih => rw [MembersNormal, ih, List.forall_mem_cons]

theorem MembersNormal.insert (h : MembersNormal found) (hvalue : value.IsNormal) :
    MembersNormal (found.insert name value) := by
  rw [membersNormal_iff] at h ⊢
  intro m hm
  rcases Members.mem_insert hm with rfl | hm
  · exact hvalue
  · exact h m hm

/-! What a value holds is smaller than the value -/

theorem sizeOf_lt_of_element {v : Value} (h : v ∈ vs) : sizeOf v < sizeOf (Value.array vs) := by
  have hlt := List.sizeOf_lt_of_mem h
  rw [Value.array.sizeOf_spec]
  omega

theorem sizeOf_lt_of_member {m : String × Value} (h : m ∈ ms) :
    sizeOf m.2 < sizeOf (Value.object ms) := by
  have hlt := List.sizeOf_lt_of_mem h
  obtain ⟨name, v⟩ := m
  rw [Prod.mk.sizeOf_spec] at hlt
  rw [Value.object.sizeOf_spec]
  dsimp only
  omega

/-! A value in normal form is its own normal form -/

theorem normalElements?_eq_self (h : ∀ v ∈ vs, v.normal? = some v) :
    normalElements? vs = some vs := by
  induction vs with
  | nil => rfl
  | cons v vs ih =>
    obtain ⟨hv, hvs⟩ := List.forall_mem_cons.mp h
    rw [normalElements?, hv, ih hvs]
    rfl

theorem normalMembers?_eq_append (h : ∀ m ∈ ms, m.2.normal? = some m.2)
    (hordered : Members.Ordered (found ++ ms)) :
    normalMembers? found ms = some (found ++ ms) := by
  induction ms generalizing found with
  | nil => rw [normalMembers?, List.append_nil]
  | cons m ms ih =>
    obtain ⟨name, v⟩ := m
    obtain ⟨hv, hms⟩ := List.forall_mem_cons.mp h
    -- all names found so far come before the next one, which goes to the end
    have hlast : ∀ x ∈ found, x.1 < name := fun x hx =>
      (Members.ordered_append.mp hordered).2.2 x hx _ List.mem_cons_self
    rw [List.append_cons] at hordered ⊢
    rw [normalMembers?, hv]
    change normalMembers? (found.insert name v) ms = _
    rw [Members.insert_of_forall_lt hlast]
    exact ih hms hordered

theorem Value.normal?_eq_self : ∀ v : Value, v.IsNormal → v.normal? = some v
  | .null, _ => rfl
  | .bool _, _ => rfl
  | .integer _, _ => rfl
  | .real _, h => if_pos h
  | .string _, _ => rfl
  | .array vs, h => by
    have hvs : normalElements? vs = some vs :=
      normalElements?_eq_self fun v hv => v.normal?_eq_self (elementsNormal_iff.mp h v hv)
    rw [Value.normal?, hvs]
    rfl
  | .object ms, h => by
    have hms : normalMembers? [] ms = some ms :=
      normalMembers?_eq_append (fun m hm => m.2.normal?_eq_self (membersNormal_iff.mp h.2 m hm)) h.1
    rw [Value.normal?, hms]
    rfl
  | .unreadable, h => h.elim
termination_by v => sizeOf v
decreasing_by
  · exact sizeOf_lt_of_element hv
  · exact sizeOf_lt_of_member hm

/-! The normal form of a value is in normal form -/

theorem elementsNormal_of_normalElements? (hnormal : normalElements? vs = some ws)
    (h : ∀ v ∈ vs, ∀ w, v.normal? = some w → w.IsNormal) : ElementsNormal ws := by
  induction vs generalizing ws with
  | nil =>
    obtain rfl := Option.some.inj hnormal
    trivial
  | cons v vs ih =>
    obtain ⟨hv, hvs⟩ := List.forall_mem_cons.mp h
    obtain ⟨w, hw, hrest⟩ := Option.bind_eq_some_iff.mp hnormal
    obtain ⟨ws, hws, hcons⟩ := Option.bind_eq_some_iff.mp hrest
    obtain rfl := Option.some.inj hcons
    exact ⟨hv w hw, ih hws hvs⟩

theorem normal_of_normalMembers? (hnormal : normalMembers? found ms = some out)
    (h : ∀ m ∈ ms, ∀ w, m.2.normal? = some w → w.IsNormal) (hordered : found.Ordered)
    (hfound : MembersNormal found) : out.Ordered ∧ MembersNormal out := by
  induction ms generalizing found with
  | nil =>
    obtain rfl := Option.some.inj hnormal
    exact ⟨hordered, hfound⟩
  | cons m ms ih =>
    obtain ⟨hm, hms⟩ := List.forall_mem_cons.mp h
    obtain ⟨w, hw, hrest⟩ := Option.bind_eq_some_iff.mp hnormal
    exact ih hrest hms hordered.insert (hfound.insert (hm w hw))

theorem Value.isNormal_of_normal? : ∀ v w : Value, v.normal? = some w → w.IsNormal
  | .null, _, h => by
    obtain rfl := Option.some.inj h
    trivial
  | .bool _, _, h => by
    obtain rfl := Option.some.inj h
    trivial
  | .integer _, _, h => by
    obtain rfl := Option.some.inj h
    trivial
  | .real x, w, h => by
    rw [Value.normal?] at h
    split at h
    case isTrue hfinite =>
      obtain rfl := Option.some.inj h
      exact hfinite
    case isFalse => cases h
  | .string _, _, h => by
    obtain rfl := Option.some.inj h
    trivial
  | .array vs, _, h => by
    obtain ⟨ws, hws, rfl⟩ := Option.map_eq_some_iff.mp h
    exact elementsNormal_of_normalElements? hws fun v hv => v.isNormal_of_normal?
  | .object ms, _, h => by
    obtain ⟨out, hout, rfl⟩ := Option.map_eq_some_iff.mp h
    exact normal_of_normalMembers? hout (fun m hm => m.2.isNormal_of_normal?) .nil trivial
  | .unreadable, _, h => by cases h
termination_by v => sizeOf v
decreasing_by
  · exact sizeOf_lt_of_element hv
  · exact sizeOf_lt_of_member hm

/-- Members are their own normal form just when they are in normal form. -/
theorem normalMembers?_eq_self_iff :
    normalMembers? [] ms = some ms ↔ ms.Ordered ∧ MembersNormal ms := by
  constructor
  · intro h
    exact normal_of_normalMembers? h (fun m _ => m.2.isNormal_of_normal?) .nil trivial
  · rintro ⟨hordered, hnormal⟩
    exact normalMembers?_eq_append
      (fun m hm => m.2.normal?_eq_self (membersNormal_iff.mp hnormal m hm)) hordered

end TransitAudit.Json
