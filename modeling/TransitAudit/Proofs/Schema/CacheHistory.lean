import Mathlib.Data.List.Dedup
import Mathlib.Data.List.Perm.Subperm
import TransitAudit.Schema.Cache

/-! Histories of a cache. As long as there is room for all identifiers, a cache answers with the
first value that was loaded for an identifier, loads until there is one, and forgets that a load has
failed. Its loader is called each time, but the load that the call makes runs no longer. -/
namespace TransitAudit

/-! Histories -/

/-- Calls with their answers, one after another, from one state to another. Before each call the
state may change by itself. -/
inductive History {σ κ α : Type} (fades : σ → σ → Prop) (ask : σ → κ → α × σ) :
    σ → List (κ × α) → σ → Prop where
  | nil {s : σ} : History fades ask s [] s
  | cons {s t u : σ} {call : κ} {rest : List (κ × α)} (hfades : fades s t)
    (hrest : History fades ask (ask t call).2 rest u) :
    History fades ask s ((call, (ask t call).1) :: rest) u

namespace History

variable {σ κ α : Type} {fades : σ → σ → Prop} {ask : σ → κ → α × σ} {s u : σ}
  {before after : List (κ × α)} {x : κ × α}

theorem append (hbefore : History fades ask s before u) {v : σ} (hafter : History fades ask u after v) :
    History fades ask s (before ++ after) v := by
  induction hbefore with
  | nil => exact hafter
  | cons hfades _ ih => exact .cons hfades (ih hafter)

/-- What holds at first and is kept by every change and every call holds in the end, together with
the calls so far. -/
theorem invariant {P : List (κ × α) → σ → Prop} {history : List (κ × α)}
    (h : History fades ask s history u) (past : List (κ × α)) (hs : P past s)
    (hfades : ∀ past s t, P past s → fades s t → P past t)
    (hask : ∀ past t x, x ∈ history → x.2 = (ask t x.1).1 → P past t →
      P (past ++ [x]) (ask t x.1).2) : P (past ++ history) u := by
  induction h generalizing past with
  | nil =>
    rw [List.append_nil]
    exact hs
  | @cons s t u call rest hfade _ ih =>
    rw [List.append_cons]
    apply ih _
    · exact hask past t _ List.mem_cons_self rfl (hfades past s t hs hfade)
    · intro past t x hx
      exact hask past t x (List.mem_cons_of_mem _ hx)

/-- What a history tells of one of its calls: where it was made, and how the history goes on. -/
theorem exists_of_split (h : History fades ask s (before ++ x :: after) u) :
    ∃ t t', History fades ask s before t ∧ fades t t' ∧ x.2 = (ask t' x.1).1 ∧
      History fades ask (ask t' x.1).2 after u := by
  induction before generalizing s with
  | nil =>
    cases h with
    | cons hfades hrest => exact ⟨s, _, .nil, hfades, rfl, hrest⟩
  | cons y before ih =>
    cases h with
    | cons hfades hrest =>
      obtain ⟨t, t', hbefore, h⟩ := ih hrest
      exact ⟨t, t', .cons hfades hbefore, h⟩

end History

/-! Room in a cache -/

namespace Cache

variable {α : Type} {c d : Cache α} {identifier : String} {value : α} {identifiers : List String}

theorem get?_insert (other : String) : (c.insert identifier value).get? other =
    if other = identifier then some value else c.get? other := by
  rw [insert, get?, List.lookup_cons]
  by_cases h : other = identifier
  · rw [if_pos h, h, beq_self_eq_true]
  · rw [if_neg h, beq_eq_false_iff_ne.mpr h]
    rfl

/-- Each entry is for another one of some identifiers. -/
structure Within (c : Cache α) (identifiers : List String) : Prop where
  nodup : (c.entries.map (·.1)).Nodup
  subset : c.entries.map (·.1) ⊆ identifiers

theorem within_empty : (empty : Cache α).Within identifiers :=
  ⟨List.nodup_nil, List.nil_subset _⟩

theorem Within.insert (h : c.Within identifiers) (hmem : identifier ∈ identifiers)
    (hnone : c.get? identifier = none) (value : α) :
    (c.insert identifier value).Within identifiers := by
  refine ⟨List.nodup_cons.mpr ⟨?_, h.nodup⟩, List.cons_subset.mpr ⟨hmem, h.subset⟩⟩
  intro hkept
  obtain ⟨entry, hentry, hname⟩ := List.mem_map.mp hkept
  have hdiffers := List.lookup_eq_none_iff.mp hnone entry hentry
  rw [bne_iff_ne] at hdiffers
  exact hdiffers hname.symm

theorem Within.request {σ : Type} (h : c.Within identifiers) (hmem : identifier ∈ identifiers)
    (loader : Loader σ α) (world : σ) :
    (c.request identifier loader world).1.cache.Within identifiers := by
  unfold Cache.request
  extract_lets made
  split
  · exact h
  case h_2 hnone =>
    split
    · exact h.insert hmem hnone _
    · exact h

theorem Within.getOrLoad (h : c.Within identifiers) (hmem : identifier ∈ identifiers)
    (load : Unit → Except AuditError α) :
    (c.getOrLoad identifier load).cache.Within identifiers :=
  h.request hmem _ ()

/-- With room for all of its identifiers a cache drops nothing. -/
theorem Within.eq_of_drops (h : c.Within identifiers) (hroom : identifiers.length ≤ capacity)
    (hdrops : c.Drops d) : d = c := by
  apply hdrops.within
  have hle := (List.subperm_of_subset h.nodup h.subset).length_le
  rw [List.length_map] at hle
  exact Nat.le_trans hle hroom

end Cache

/-! Calls of a cache -/

/-- A call of a cache: for which identifier, with which loader, and the world at that time. -/
structure CacheCall (σ α : Type) where
  identifier : String
  loader : Cache.Loader σ α
  world : σ

namespace CacheCall

variable {σ α : Type} {call : CacheCall σ α} {identifier : String} {value : α}

/-- The world once the loader has been called. -/
def made (call : CacheCall σ α) : σ :=
  (call.loader call.world).2

/-- What the load gives if it runs, and the world then. -/
def run (call : CacheCall σ α) : Except AuditError α × σ :=
  (call.loader call.world).1 call.made

/-- What the load gives if it runs. -/
def load (call : CacheCall σ α) : Except AuditError α :=
  call.run.1

/-- The value that the call loads for an identifier, if it loads one. -/
def value? (call : CacheCall σ α) (identifier : String) : Option α :=
  if call.identifier = identifier then call.load.toOption else none

theorem value?_of_ne (h : call.identifier ≠ identifier) : call.value? identifier = none :=
  if_neg h

theorem value?_self_of_ok (h : call.load = .ok value) :
    call.value? call.identifier = some value := by
  rw [value?, if_pos rfl, h]
  rfl

theorem value?_of_error {e : AuditError} (h : call.load = .error e) :
    call.value? identifier = none := by
  rw [value?, h]
  exact ite_self _

theorem value?_eq_some_iff :
    call.value? identifier = some value ↔ call.identifier = identifier ∧ call.load = .ok value := by
  unfold value?
  cases call.load <;> simp [Except.toOption]

theorem value?_eq_none_iff : call.value? identifier = none ↔
    (call.identifier = identifier → ∃ e, call.load = .error e) := by
  unfold value?
  cases call.load <;> simp [Except.toOption]

end CacheCall

/-- Failures that speak of a schema or of its paths. -/
def AuditError.aboutSchema : AuditError → Bool
  | .schemaNotFound _ => true
  | .malformedConstraint _ _ => true
  | .invalidPath _ _ => true
  | .schemaParsing _ _ => true
  | _ => false

namespace Cache

variable {σ α : Type} {c d : Cache α} {call : CacheCall σ α} {past : List (CacheCall σ α)}
  {identifier : String} {identifiers : List String} {value : α} {cause : AuditError}
  {history before after : List (CacheCall σ α × CacheAnswer α × σ)} {a : CacheAnswer α × σ}

theorem failure_eq (identifier : String) (e : AuditError) : failure identifier e =
    if e.aboutSchema then e else .schemaParsing identifier e.message := by
  cases e <;> rfl

/-- The answer to a call with the world that the call leaves, and the cache then. -/
def ask (c : Cache α) (call : CacheCall σ α) : (CacheAnswer α × σ) × Cache α :=
  let a := c.request call.identifier call.loader call.world
  (a, a.1.cache)

theorem ask_eq (c : Cache α) (call : CacheCall σ α) : c.ask call =
    match c.get? call.identifier with
    | some value => ((⟨.ok value, false, c⟩, call.made), c)
    | none =>
      match call.run with
      | (.ok value, world) => ((⟨.ok value, true, c.insert call.identifier value⟩, world),
          c.insert call.identifier value)
      | (.error e, world) => ((⟨.error (failure call.identifier e), true, c⟩, world), c) := by
  simp only [ask, request, CacheCall.run, CacheCall.made]
  cases c.get? call.identifier with
  | some value => rfl
  | none => rcases (call.loader call.world).1 (call.loader call.world).2 with ⟨_ | _, _⟩ <;> rfl

theorem ask_of_kept (h : c.get? call.identifier = some value) :
    c.ask call = ((⟨.ok value, false, c⟩, call.made), c) := by
  rw [ask_eq, h]

theorem ask_of_loaded (h : c.get? call.identifier = none) (hload : call.load = .ok value) :
    c.ask call = ((⟨.ok value, true, c.insert call.identifier value⟩, call.run.2),
      c.insert call.identifier value) := by
  have hrun : call.run = (.ok value, call.run.2) := Prod.ext hload rfl
  rw [ask_eq, h, hrun]

theorem ask_of_failed (h : c.get? call.identifier = none) (hload : call.load = .error cause) :
    c.ask call = ((⟨.error (failure call.identifier cause), true, c⟩, call.run.2), c) := by
  have hrun : call.run = (.error cause, call.run.2) := Prod.ext hload rfl
  rw [ask_eq, h, hrun]

/-- What a call leaves of the world: its loader has been called in any case, its load has run just
where it is told to have. -/
theorem world_of_ask (c : Cache α) (call : CacheCall σ α) :
    (c.ask call).1.2 = if (c.ask call).1.1.loaded then call.run.2 else call.made := by
  cases hkept : c.get? call.identifier with
  | some value => simp [ask_of_kept hkept]
  | none =>
    cases hload : call.load with
    | ok value => simp [ask_of_loaded hkept hload]
    | error cause => simp [ask_of_failed hkept hload]

/-- The value of the first load for an identifier that succeeds. -/
def firstLoad? (calls : List (CacheCall σ α)) (identifier : String) : Option α :=
  calls.findSome? (·.value? identifier)

theorem firstLoad?_concat : firstLoad? (past ++ [call]) identifier =
    (firstLoad? past identifier).or (call.value? identifier) := by
  rw [firstLoad?, List.findSome?_append, List.findSome?_singleton]
  rfl

/-- A cache holds the first loads of past calls. -/
def Recalls (c : Cache α) (past : List (CacheCall σ α)) : Prop :=
  ∀ identifier, c.get? identifier = firstLoad? past identifier

theorem recalls_empty : (empty : Cache α).Recalls ([] : List (CacheCall σ α)) := by
  intro identifier
  rfl

theorem Recalls.ask (h : c.Recalls past) (call : CacheCall σ α) :
    (c.ask call).2.Recalls (past ++ [call]) := by
  intro identifier
  rw [firstLoad?_concat, ← h]
  cases hkept : c.get? call.identifier with
  | some value =>
    rw [ask_of_kept hkept]
    by_cases hid : call.identifier = identifier
    · rw [← hid, hkept, Option.some_or]
    · rw [CacheCall.value?_of_ne hid, Option.or_none]
  | none =>
    cases hload : call.load with
    | ok value =>
      rw [ask_of_loaded hkept hload, get?_insert]
      by_cases hid : call.identifier = identifier
      · rw [if_pos hid.symm, ← hid, hkept, CacheCall.value?_self_of_ok hload, Option.none_or]
      · rw [if_neg (Ne.symm hid), CacheCall.value?_of_ne hid, Option.or_none]
    | error cause =>
      rw [ask_of_failed hkept hload, CacheCall.value?_of_error hload, Option.or_none]

theorem Recalls.loaded_iff (h : c.Recalls past) :
    (c.ask call).1.1.loaded = true ↔ firstLoad? past call.identifier = none := by
  rw [← h]
  cases hkept : c.get? call.identifier with
  | some value => simp [ask_of_kept hkept]
  | none =>
    cases hload : call.load with
    | ok value => simp [ask_of_loaded hkept hload]
    | error cause => simp [ask_of_failed hkept hload]

theorem Recalls.answer_eq_ok_iff (h : c.Recalls past) :
    (c.ask call).1.1.answer = .ok value ↔ firstLoad? (past ++ [call]) call.identifier = some value := by
  rw [firstLoad?_concat, ← h]
  cases hkept : c.get? call.identifier with
  | some value => simp [ask_of_kept hkept]
  | none =>
    cases hload : call.load with
    | ok value => simp [ask_of_loaded hkept hload, CacheCall.value?_self_of_ok hload]
    | error cause => simp [ask_of_failed hkept hload, CacheCall.value?_of_error hload]

/-- An answer that is a failure is that of a load, and leaves the cache as it is. -/
theorem exists_of_ask_eq_error {e : AuditError} (h : (c.ask call).1.1.answer = .error e) :
    (∃ cause, (c.ask call).1.1.loaded = true ∧ call.load = .error cause ∧
      e = if cause.aboutSchema then cause else .schemaParsing call.identifier cause.message) ∧
    (c.ask call).2 = c := by
  cases hkept : c.get? call.identifier with
  | some value =>
    rw [ask_of_kept hkept] at h
    cases h
  | none =>
    cases hload : call.load with
    | ok value =>
      rw [ask_of_loaded hkept hload] at h
      cases h
    | error cause =>
      rw [ask_of_failed hkept hload] at h ⊢
      cases h
      exact ⟨⟨cause, rfl, rfl, failure_eq ..⟩, rfl⟩

/-! Whole histories -/

/-- All calls of a history are for some identifiers, for which there is room. -/
structure Fits (history : List (CacheCall σ α × CacheAnswer α × σ)) (identifiers : List String) : Prop where
  mem : ∀ x ∈ history, x.1.identifier ∈ identifiers
  room : identifiers.length ≤ capacity

theorem recalls_of_history (h : History Drops ask empty history d)
    (hfits : Fits history identifiers) :
    d.Within identifiers ∧ d.Recalls (history.map (·.1)) := by
  refine h.invariant (P := fun past c => c.Within identifiers ∧ c.Recalls (past.map (·.1))) []
    ⟨within_empty, recalls_empty⟩ ?_ ?_
  · rintro past c c' ⟨hwithin, hrecalls⟩ hdrops
    obtain rfl : c' = c := hwithin.eq_of_drops hfits.room hdrops
    exact ⟨hwithin, hrecalls⟩
  · rintro past c x hx - ⟨hwithin, hrecalls⟩
    refine ⟨hwithin.request (hfits.mem x hx) _ _, ?_⟩
    rw [List.map_append]
    exact hrecalls.ask x.1

/-- A call was put to a cache that held the first loads of the calls before. -/
theorem exists_of_call (h : History Drops ask empty (before ++ (call, a) :: after) d)
    (hfits : Fits (before ++ (call, a) :: after) identifiers) :
    ∃ c : Cache α, History Drops ask empty before c ∧ c.Within identifiers ∧
      c.Recalls (before.map (·.1)) ∧ a = (c.ask call).1 ∧
        History Drops ask (c.ask call).2 after d := by
  obtain ⟨c, c', hbefore, hdrops, ha, hafter⟩ := h.exists_of_split
  have hfits' : Fits before identifiers :=
    ⟨fun x hx => hfits.mem x (List.mem_append_left _ hx), hfits.room⟩
  obtain ⟨hwithin, hrecalls⟩ := recalls_of_history hbefore hfits'
  obtain rfl : c' = c := hwithin.eq_of_drops hfits.room hdrops
  exact ⟨c', hbefore, hwithin, hrecalls, ha, hafter⟩

theorem loaded_iff (h : History Drops ask empty (before ++ (call, a) :: after) d)
    (hfits : Fits (before ++ (call, a) :: after) identifiers) :
    a.1.loaded = true ↔ firstLoad? (before.map (·.1)) call.identifier = none := by
  obtain ⟨c, -, -, hrecalls, rfl, -⟩ := exists_of_call h hfits
  exact hrecalls.loaded_iff

theorem answer_eq_ok_iff (h : History Drops ask empty (before ++ (call, a) :: after) d)
    (hfits : Fits (before ++ (call, a) :: after) identifiers) : a.1.answer = .ok value ↔
      firstLoad? ((before ++ [(call, a)]).map (·.1)) call.identifier = some value := by
  obtain ⟨c, -, -, hrecalls, rfl, -⟩ := exists_of_call h hfits
  rw [hrecalls.answer_eq_ok_iff, List.map_append]
  rfl

/-- The first load that succeeds, and the failures of those before it. -/
theorem exists_first_of_firstLoad? (h : firstLoad? (history.map (·.1)) identifier = some value) :
    ∃ earlier x later, history = earlier ++ x :: later ∧ x.1.identifier = identifier ∧
      x.1.load = .ok value ∧ firstLoad? (earlier.map (·.1)) identifier = none := by
  obtain ⟨calls, call, rest, hcalls, hfirst, hbefore⟩ := List.findSome?_eq_some_iff.mp h
  obtain ⟨earlier, tail, rfl, rfl, htail⟩ := List.map_eq_append_iff.mp hcalls
  obtain ⟨x, later, rfl, rfl, rfl⟩ := List.map_eq_cons_iff.mp htail
  obtain ⟨hid, hload⟩ := CacheCall.value?_eq_some_iff.mp hfirst
  exact ⟨earlier, x, later, rfl, hid, hload, List.findSome?_eq_none_iff.mpr hbefore⟩

/-- There is no first load just when no call for the identifier has been answered with a value. -/
theorem firstLoad?_eq_none_iff (h : History Drops ask empty history d)
    (hfits : Fits history identifiers) : firstLoad? (history.map (·.1)) identifier = none ↔
      ¬∃ x ∈ history, x.1.identifier = identifier ∧ ∃ v, x.2.1.answer = .ok v := by
  constructor
  · rintro hnone ⟨x, hx, rfl, v, hv⟩
    obtain ⟨before, after, rfl⟩ := List.append_of_mem hx
    rw [answer_eq_ok_iff h hfits] at hv
    rw [List.append_cons, List.map_append, firstLoad?, List.findSome?_append] at hnone
    rw [firstLoad?, (Option.or_eq_none_iff.mp hnone).1] at hv
    cases hv
  · intro hnone
    cases hfirst : firstLoad? (history.map (·.1)) identifier with
    | none => rfl
    | some v =>
      obtain ⟨before, x, after, rfl, rfl, hload, hbefore⟩ := exists_first_of_firstLoad? hfirst
      refine absurd ⟨x, List.mem_append_right _ List.mem_cons_self, rfl, v, ?_⟩ hnone
      rw [answer_eq_ok_iff h hfits, List.map_append, List.map_singleton, firstLoad?_concat, hbefore,
        CacheCall.value?_self_of_ok hload, Option.none_or]

/-- With room for all identifiers, the answers follow from the calls. -/
theorem history_unique {other : List (CacheCall σ α × CacheAnswer α × σ)} {e : Cache α}
    (h : History Drops ask c history d) (hother : History Drops ask c other e)
    (hcalls : other.map (·.1) = history.map (·.1)) (hfits : Fits history identifiers)
    (hwithin : c.Within identifiers) : other = history := by
  induction h generalizing other with
  | nil => exact List.map_eq_nil_iff.mp hcalls
  | @cons c c' d call rest hdrops _ ih =>
    cases hother with
    | nil => cases hcalls
    | @cons _ c'' _ call' rest' hdrops' hrest' =>
      obtain rfl : c' = c := hwithin.eq_of_drops hfits.room hdrops
      obtain rfl : c'' = c' := hwithin.eq_of_drops hfits.room hdrops'
      obtain ⟨hcall, hrest⟩ := List.cons_eq_cons.mp hcalls
      obtain rfl : call' = call := hcall
      obtain ⟨hmem, hmems⟩ := List.forall_mem_cons.mp hfits.mem
      rw [ih hrest' hrest ⟨hmems, hfits.room⟩ (hwithin.request hmem _ _)]

/-- Without a call that failed, the others are answered as with it. -/
theorem history_without_failed {e : AuditError}
    (h : History Drops ask empty (before ++ (call, a) :: after) d)
    (hfits : Fits (before ++ (call, a) :: after) identifiers) (herror : a.1.answer = .error e) :
    History Drops ask empty (before ++ after) d ∧
      ∀ other d', History Drops ask empty other d' →
        other.map (·.1) = (before ++ after).map (·.1) → other = before ++ after := by
  obtain ⟨c, hbefore, -, -, rfl, hafter⟩ := exists_of_call h hfits
  rw [(exists_of_ask_eq_error herror).2] at hafter
  have hwithout := hbefore.append hafter
  have hfits' : Fits (before ++ after) identifiers := by
    refine ⟨fun x hx => hfits.mem x ?_, hfits.room⟩
    rw [List.mem_append, List.mem_cons]
    exact (List.mem_append.mp hx).imp_right .inr
  exact ⟨hwithout, fun other d' hother hcalls =>
    history_unique hwithout hother hcalls hfits' within_empty⟩

/-- In a history for no more identifiers than a cache has room for, the loader of each call is
called, but the load that it makes runs only if no call for its identifier has been answered with a
value before; a value is that of the first load for the identifier that succeeds; and a failure is
that of the call's own load, told as one of the schema, which changes no other answer. -/
theorem answers_by_first_load
    (h : History Drops ask empty (before ++ (call, a) :: after) d)
    (hroom : ((before ++ (call, a) :: after).map (·.1.identifier)).dedup.length ≤ capacity) :
    (a.1.loaded = true ↔
      ¬∃ x ∈ before, x.1.identifier = call.identifier ∧ ∃ v, x.2.1.answer = .ok v) ∧
    a.2 = (if a.1.loaded then call.run.2 else call.made) ∧
    (∀ v, a.1.answer = .ok v → ∃ earlier x later, before ++ [(call, a)] = earlier ++ x :: later ∧
      x.1.identifier = call.identifier ∧ x.2.1.loaded = true ∧ x.1.load = .ok v ∧
      ∀ y ∈ earlier, y.1.identifier = call.identifier → ∃ e, y.1.load = .error e) ∧
    ∀ e, a.1.answer = .error e →
      (∃ cause, a.1.loaded = true ∧ call.load = .error cause ∧
        e = if cause.aboutSchema then cause
          else .schemaParsing call.identifier cause.message) ∧
      History Drops ask empty (before ++ after) d ∧
      ∀ other d', History Drops ask empty other d' →
        other.map (·.1) = (before ++ after).map (·.1) → other = before ++ after := by
  have hfits : Fits (before ++ (call, a) :: after)
      ((before ++ (call, a) :: after).map (·.1.identifier)).dedup := by
    refine ⟨fun x hx => ?_, hroom⟩
    rw [List.mem_dedup]
    exact List.mem_map.mpr ⟨x, hx, rfl⟩
  have hfits' : Fits before _ := ⟨fun x hx => hfits.mem x (List.mem_append_left _ hx), hroom⟩
  obtain ⟨c, hbefore, -, -, ha, -⟩ := exists_of_call h hfits
  refine ⟨?_, ?_, fun v hv => ?_, fun e he => ⟨?_, history_without_failed h hfits he⟩⟩
  · rw [loaded_iff h hfits, firstLoad?_eq_none_iff hbefore hfits']
  · rw [ha]
    exact world_of_ask c call
  · rw [answer_eq_ok_iff h hfits] at hv
    obtain ⟨earlier, x, later, hsplit, hid, hload, hnone⟩ := exists_first_of_firstLoad? hv
    refine ⟨earlier, x, later, hsplit, hid, ?_, hload, ?_⟩
    · rw [List.append_cons, hsplit, List.append_assoc] at h hfits
      rw [loaded_iff h hfits, hid, hnone]
    · intro y hy hyid
      have hy' := List.findSome?_eq_none_iff.mp hnone y.1 (List.mem_map_of_mem hy)
      exact CacheCall.value?_eq_none_iff.mp hy' hyid
  · rw [ha] at he ⊢
    exact (exists_of_ask_eq_error he).1

/-- A disk that counts how often a loader has been called and how often it has been read. -/
structure CountingDisk where
  content : Except AuditError Nat
  calls : Nat
  reads : Nat

/-- Counts when it is called, and makes a load that counts again. -/
def countingLoader : Loader CountingDisk Nat := fun disk =>
  (fun disk => (disk.content, { disk with reads := disk.reads + 1 }),
    { disk with calls := disk.calls + 1 })

/-- The disk fails at the first call and holds another value at the third. -/
def diskCalls : List (CacheCall CountingDisk Nat) :=
  [⟨"a", countingLoader, ⟨.error (.io "disk"), 0, 0⟩⟩, ⟨"a", countingLoader, ⟨.ok 1, 1, 1⟩⟩,
    ⟨"a", countingLoader, ⟨.ok 2, 2, 2⟩⟩]

/-- At the third call the loader is called, but the disk is not read any more. -/
def diskAnswers : List (CacheAnswer Nat × CountingDisk) :=
  [(⟨.error (.schemaParsing "a" "IO error: disk"), true, empty⟩, ⟨.error (.io "disk"), 1, 1⟩),
    (⟨.ok 1, true, ⟨[("a", 1)]⟩⟩, ⟨.ok 1, 2, 2⟩), (⟨.ok 1, false, ⟨[("a", 1)]⟩⟩, ⟨.ok 2, 3, 2⟩)]

theorem answers_by_first_load_of_disk :
    History Drops ask empty (diskCalls.zip diskAnswers) ⟨[("a", 1)]⟩ ∧
      ((diskCalls.zip diskAnswers).map (·.1.identifier)).dedup.length ≤ capacity ∧
      (∃ earlier x later, diskCalls.zip diskAnswers = earlier ++ x :: later ∧
        x.2.1.loaded = true ∧ x.1.load = .ok 1 ∧
          ∀ y ∈ earlier, y.1.identifier = "a" → ∃ e, y.1.load = .error e) ∧
      diskAnswers.getLast?.map (·.2) = diskCalls.getLast?.map CacheCall.made ∧
      ∀ other d, History Drops ask empty other d → other.map (·.1) = diskCalls.tail →
        other = (diskCalls.zip diskAnswers).tail := by
  have hstays (c : Cache Nat) : c.Drops c := ⟨fun _ _ h => h, fun _ => rfl⟩
  have h : History Drops ask empty (diskCalls.zip diskAnswers) ⟨[("a", 1)]⟩ :=
    .cons (hstays _) (.cons (hstays _) (.cons (hstays _) .nil))
  have hroom : ((diskCalls.zip diskAnswers).map (·.1.identifier)).dedup.length ≤ capacity := by
    decide
  -- the last call is answered with a value, the first one with a failure
  have hlast := answers_by_first_load
    (show History Drops ask empty ((diskCalls.zip diskAnswers).take 2 ++ _ :: []) _ from h) hroom
  have hfirst := answers_by_first_load (show History Drops ask empty ([] ++ _ :: _) _ from h) hroom
  obtain ⟨-, hworld, hvalue, -⟩ := hlast
  obtain ⟨earlier, x, later, hsplit, -, hx⟩ := hvalue 1 rfl
  exact ⟨h, hroom, ⟨earlier, x, later, hsplit, hx⟩, congrArg some hworld,
    (hfirst.2.2.2 _ rfl).2.2⟩

end Cache

end TransitAudit
