import WellControl.Proofs.Phase.Correspondence

/-! # Phases in another order

Two phase tables that list the same phases in different orders have the same phases active.  What is
read of an array for the one is then the same as what is read of its counterpart for the other, also
where a phase is inactive, and any rates of phases make an array for both. -/
set_option autoImplicit false

namespace WellControl
variable {t t' : PhaseTable}

namespace PhaseTable

theorem has_eq (perm : t.active.Perm t'.active) : t'.has = t.has := by
  funext p
  rw [has, has, decide_eq_decide, perm.mem_iff]

theorem SameRates.rate {xs ys : List ℚ} (same : SameRates t t' xs ys)
    (perm : t.active.Perm t'.active) : t'.rate ys = t.rate xs := by
  funext p
  exact same.rate_eq perm.mem_iff

theorem sameRates_map (perm : t.active.Perm t'.active) (f : Phase → ℚ) :
    SameRates t t' (t.active.map f) (t'.active.map f) :=
  sameRates_map_active fun _ _ => perm.mem_iff

end PhaseTable

/-- The exchange between oil and gas is a matter of which phases are active. -/
theorem FormationVolume.sameExchange_of_perm {c c' : FormationVolume ℚ}
    (perm : c.table.active.Perm c'.table.active) : SameExchange c c' := by
  have mixes : c'.mixes = c.mixes := by
    rw [FormationVolume.mixes, FormationVolume.mixes, PhaseTable.has_eq perm]
  constructor
  · intro _ _ r _
    rw [FormationVolume.dissolved, FormationVolume.dissolved, mixes]
  · intro _ _ r _
    rw [FormationVolume.vaporized, FormationVolume.vaporized, mixes]

end WellControl
