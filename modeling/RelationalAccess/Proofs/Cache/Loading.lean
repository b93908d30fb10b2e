import RelationalAccess.Cache.Reading
import RelationalAccess.Proofs.Outcome

/-!
What the steps of reads through a cache lead to. A source that does anything at
all enters only by what its own actions lead to.
-/

namespace RelationalAccess

variable {World α : Type}

theorem Leads.current {before : TableCache × World → Prop}
    {after : TableCache → TableCache × World → Prop} {failed : TableCache × World → Prop}
    (holds : ∀ state, before state → after state.1 state) :
    Leads before (TableCache.current : Loading World TableCache) after failed :=
  holds

/-- A read that begins with a certain cache knows it. -/
theorem Leads.current_eq {cache : TableCache} {condition : World → Prop}
    {failed : TableCache × World → Prop} :
    Leads (fun state => state.1 = cache ∧ condition state.2)
      (TableCache.current : Loading World TableCache)
      (fun now state => (state.1 = cache ∧ condition state.2) ∧ now = cache) failed :=
  .current fun _ holds => ⟨holds, holds.1⟩

theorem Leads.update {change : TableCache → α × TableCache} {before : TableCache × World → Prop}
    (after : α → TableCache × World → Prop) {failed : TableCache × World → Prop}
    (holds : ∀ state, before state → after (change state.1).1 ((change state.1).2, state.2)) :
    Leads before (TableCache.update change : Loading World α) after failed :=
  holds

end RelationalAccess
