import Mathlib.Data.List.TakeDrop
import Mathlib.Data.List.TakeWhile
import TransitAudit.Proofs.Failure
import TransitAudit.Text.Reader

/-! What readers give. A property of results is passed on from the parts of a reader to the whole,
and through repetition from one round to all. -/
namespace TransitAudit.Text

variable {ε α β σ : Type}

/-- Whatever the reader gives has the property. -/
def Reader.Gives (r : Reader ε α) (P : α → Prop) : Prop :=
  ∀ c a d, r c = .ok (a, d) → P a

namespace Reader.Gives

theorem any (r : Reader ε α) : r.Gives fun _ => True :=
  fun _ _ _ _ => trivial

theorem pure {a : α} {P : α → Prop} (ha : P a) : (Pure.pure a : Reader ε α).Gives P := by
  intro c b d h
  cases h
  exact ha

theorem throw {e : ε} {P : α → Prop} : (MonadExcept.throw e : Reader ε α).Gives P := by
  intro c b d h
  cases h

/-- What would come after a failure does not matter. -/
theorem throw_bind {e : ε} {f : α → Reader ε β} {P : β → Prop} :
    ((MonadExcept.throw e : Reader ε α) >>= f).Gives P := by
  intro c b d h
  cases h

theorem bind {r : Reader ε α} {f : α → Reader ε β} {P : α → Prop} {Q : β → Prop}
    (hr : r.Gives P) (hf : ∀ a, P a → (f a).Gives Q) : (r >>= f).Gives Q := by
  intro c b d h
  obtain ⟨⟨a, c'⟩, ha, hb⟩ := bind_eq_ok_iff.mp h
  exact hf a (hr c a c' ha) c' b d hb

theorem takeWhile (p : Char → Bool) :
    (Reader.takeWhile p : Reader ε (List Char)).Gives fun cs => ∀ c ∈ cs, p c = true := by
  intro c cs d h
  have htaken : cs = (c.rest.span p).1 := by
    cases h
    rfl
  rw [htaken, List.span_eq_takeWhile_dropWhile]
  intro x hx
  exact List.mem_takeWhile_imp hx

theorem collectInto {step : σ → Reader ε (Option (α × σ))} {P : α → Prop}
    (hstep : ∀ s, (step s).Gives fun r => ∀ a ∈ r, P a.1) (s : σ) (found : Array α) (c : Cursor)
    {xs : List α} {d : Cursor} (h : Reader.collectInto step s found c = .ok (xs, d))
    (hfound : ∀ a ∈ found, P a) : ∀ a ∈ xs, P a := by
  induction s, found, c using Reader.collectInto.induct step with
  | case1 s found c e he =>
    rw [Reader.collectInto, he] at h
    cases h
  | case2 s found c d' he =>
    rw [Reader.collectInto, he] at h
    cases h
    simpa using hfound
  | case3 s found c a next d' he hlt ih =>
    rw [Reader.collectInto, he] at h
    simp only [if_pos hlt] at h
    apply ih h
    intro x hx
    rcases Array.mem_push.mp hx with hx | rfl
    · exact hfound x hx
    · exact hstep s c _ d' he (x, next) rfl
  | case4 s found c a next d' he hlt =>
    rw [Reader.collectInto, he] at h
    simp only [if_neg hlt] at h
    cases h
    intro x hx
    rcases Array.mem_push.mp (Array.mem_toList_iff.mp hx) with hx | rfl
    · exact hfound x hx
    · exact hstep s c _ _ he (x, next) rfl

theorem collectFrom {step : σ → Reader ε (Option (α × σ))} {P : α → Prop}
    (hstep : ∀ s, (step s).Gives fun r => ∀ a ∈ r, P a.1) (s : σ) :
    (Reader.collectFrom step s).Gives fun xs => ∀ x ∈ xs, P x := by
  intro c xs d h
  exact collectInto hstep s #[] c h (by simp)

theorem collect {step : Reader ε (Option α)} {P : α → Prop}
    (hstep : step.Gives fun r => ∀ a ∈ r, P a) :
    (Reader.collect step).Gives fun xs => ∀ x ∈ xs, P x := by
  refine collectFrom (fun s => bind hstep fun r hr => pure ?_) ()
  intro a ha
  obtain ⟨x, hx, rfl⟩ := Option.map_eq_some_iff.mp ha
  exact hr x hx

end Reader.Gives

end TransitAudit.Text
