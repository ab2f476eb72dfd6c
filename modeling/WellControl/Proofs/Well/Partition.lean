import Mathlib.Data.List.Nodup
import Mathlib.Data.Rat.Defs
import WellControl.Proofs.Outcome
import WellControl.Proofs.Well.Completions
import WellControl.Well.Basic

/-! # Completions as a partition

Completions list each connection once (`perm_completionsOf`).  The completion of a well's first
connection comes first, with all the connections that share its id; the others are those of the
connections that remain (`completionsOf_cons`), and by induction along this equation completions
stand in the order of their first connections.  Ids do not collide: those with a number are
positive, and a connection without one has an id below zero to itself.  Together this is
`Completes`. -/
set_option autoImplicit false

namespace WellControl

/-! ## Ids -/

namespace Connection

theorem completionId_of_none {c : Connection} (unnumbered : c.completion = none) :
    c.completionId = -(c.index + 1 : Int) := by
  rw [completionId, unnumbered]
  rfl

theorem completionId_of_some {c : Connection} {n : { n : Int // 0 < n }}
    (numbered : c.completion = some n) : c.completionId = n.val := by
  rw [completionId, numbered]

/-- A connection without a completion number shares its id with no connection of another index. -/
theorem index_eq_of_completionId {c c' : Connection} (unnumbered : c.completion = none)
    (same : c'.completionId = c.completionId) : c'.index = c.index := by
  rw [completionId_of_none unnumbered] at same
  cases numbered : c'.completion with
  | none =>
    rw [completionId_of_none numbered] at same
    omega
  | some n =>
    have positive := n.property
    rw [completionId_of_some numbered] at same
    omega

end Connection

/-! ## The first completion and the others -/

def sharers (c : Connection) (cs : List Connection) : List Connection :=
  cs.filter fun c' => c'.completionId = c.completionId

def others (c : Connection) (cs : List Connection) : List Connection :=
  cs.filter fun c' => !decide (c'.completionId = c.completionId)

theorem completionsOf_cons (c : Connection) (rest : List Connection) :
    completionsOf (c :: rest) =
      (c.completionId, c.index :: (sharers c rest).map Connection.index) ::
        completionsOf (others c rest) := by
  have ids : ((rest.map Connection.completionId).filter fun id => !id == c.completionId) =
      (others c rest).map Connection.completionId := by
    rw [others, List.filter_map]
    rfl
  have own : ((c :: rest).filter fun c' => c'.completionId = c.completionId) =
      c :: sharers c rest := List.filter_cons_of_pos (decide_eq_true rfl)
  rw [completionsOf, List.map_cons, List.eraseDups_cons, List.map_cons, ids]
  congr 1
  · rw [own, List.map_cons]
  · apply List.map_congr_left
    intro id listed
    obtain ⟨c', other, rfl⟩ := List.mem_map.1 (List.mem_eraseDups.1 listed)
    have apart : c'.completionId ≠ c.completionId := by
      simpa using (List.mem_filter.1 other).2
    rw [List.filter_cons_of_neg (by simpa using apart.symm), others, List.filter_filter]
    -- what shares the id of another completion is among the others anyway
    congr 2
    apply List.filter_congr
    intro c'' _
    by_cases same : c''.completionId = c'.completionId
    · simp [same, apart]
    · simp [same]

/-- Statements about lists of connections by induction on the completions that they form. -/
theorem completions_induction {P : List Connection → Prop} (nil : P [])
    (cons : ∀ c rest, P (others c rest) → P (c :: rest)) (cs : List Connection) : P cs := by
  cases cs with
  | nil => exact nil
  | cons c rest => exact cons c rest (completions_induction nil cons (others c rest))
termination_by cs.length
decreasing_by exact Nat.lt_succ_of_le (List.length_filter_le _ rest)

theorem heads_completionsOf (cs : List Connection) :
    ((completionsOf cs).map fun e => e.2.head?).Sublist (cs.map fun c => some c.index) := by
  induction cs using completions_induction with
  | nil => exact .slnil
  | cons c rest ih =>
    rw [completionsOf_cons]
    exact .cons_cons _ (ih.trans (List.filter_sublist.map _))

/-! ## The partition -/

/-- Completions list the connections by completion id, all of them and each of them once. -/
structure Completes (cs : List Connection) (completions : List (Int × List Nat)) : Prop where
  whole : (completions.flatMap Prod.snd).Perm (cs.map Connection.index)
  once : (completions.flatMap Prod.snd).Nodup
  ids : (completions.map Prod.fst).Nodup
  own : ∀ c ∈ cs, ∀ e ∈ completions, c.index ∈ e.2 ↔ e.1 = c.completionId
  listed : ∀ c ∈ cs, ∃ e ∈ completions, e.1 = c.completionId
  /-- The connections of a completion stand in the order of the well. -/
  inOrder : ∀ e ∈ completions, e.2.Sublist (cs.map Connection.index)
  /-- So do completions, by their first connections. -/
  byFirst : (completions.map fun e => e.2.head?).Sublist (cs.map fun c => some c.index)
  /-- A connection without a completion number is on its own, under an id of its own. -/
  alone : ∀ c ∈ cs, c.completion = none → (-(c.index + 1 : Int), [c.index]) ∈ completions
  apart : ∀ c ∈ cs, c.completion = none →
    c.completionId = -(c.index + 1 : Int) ∧ ∀ c' ∈ cs, c'.completionId = c.completionId → c' = c

section Completes
variable {cs : List Connection} {c c' : Connection}

theorem eq_of_index (distinct : (cs.map Connection.index).Nodup) (listed : c ∈ cs)
    (listed' : c' ∈ cs) (same : c'.index = c.index) : c' = c :=
  List.inj_on_of_nodup_map distinct listed' listed same

theorem mem_of_completionsOf (listed : c ∈ cs) :
    (c.completionId, (cs.filter fun c' => c'.completionId = c.completionId).map Connection.index) ∈
      completionsOf cs :=
  mem_completionsOf.2 ⟨⟨c, listed, rfl⟩, rfl⟩

theorem index_mem_iff (distinct : (cs.map Connection.index).Nodup) (listed : c ∈ cs) {id : Int}
    {indices : List Nat} (completion : (id, indices) ∈ completionsOf cs) :
    c.index ∈ indices ↔ id = c.completionId := by
  obtain ⟨-, rfl⟩ := mem_completionsOf.1 completion
  rw [List.mem_map]
  constructor
  · rintro ⟨c', kept, same⟩
    obtain ⟨listed', shared⟩ := List.mem_filter.1 kept
    rw [← eq_of_index distinct listed listed' same]
    exact (of_decide_eq_true shared).symm
  · rintro rfl
    exact ⟨c, List.mem_filter.2 ⟨listed, decide_eq_true rfl⟩, rfl⟩

theorem eq_of_completionId (distinct : (cs.map Connection.index).Nodup) (listed : c ∈ cs)
    (listed' : c' ∈ cs) (unnumbered : c.completion = none)
    (same : c'.completionId = c.completionId) : c' = c :=
  eq_of_index distinct listed listed' (Connection.index_eq_of_completionId unnumbered same)

theorem filter_eq_singleton (distinct : (cs.map Connection.index).Nodup) (listed : c ∈ cs)
    (unnumbered : c.completion = none) :
    (cs.filter fun c' => c'.completionId = c.completionId) = [c] := by
  have itself : ∀ c' ∈ cs, decide (c'.completionId = c.completionId) = (c' == c) := by
    intro c' listed'
    apply Bool.eq_iff_iff.2
    rw [decide_eq_true_iff, beq_iff_eq]
    constructor
    · exact eq_of_completionId distinct listed listed' unnumbered
    · rintro rfl
      rfl
  rw [List.filter_congr itself, List.filter_beq,
    List.count_eq_one_of_mem (List.Nodup.of_map _ distinct) listed, List.replicate_one]

theorem completes_completionsOf (distinct : (cs.map Connection.index).Nodup) :
    Completes cs (completionsOf cs) where
  whole := perm_completionsOf cs
  once := (perm_completionsOf cs).nodup_iff.2 distinct
  ids := nodup_completionsOf cs
  own c listed e completion := index_mem_iff distinct listed completion
  listed c listed := ⟨_, mem_of_completionsOf listed, rfl⟩
  inOrder e completion := by
    obtain ⟨-, same⟩ := mem_completionsOf.1 completion
    rw [same]
    exact List.filter_sublist.map _
  byFirst := heads_completionsOf cs
  alone c listed unnumbered := by
    have completion := mem_of_completionsOf listed
    rw [filter_eq_singleton distinct listed unnumbered,
      Connection.completionId_of_none unnumbered] at completion
    exact completion
  apart c listed unnumbered :=
    ⟨Connection.completionId_of_none unnumbered, fun _ listed' =>
      eq_of_completionId distinct listed listed' unnumbered⟩

end Completes

/-! ## Construction -/

section Construction
variable {α : Type} {cs : List Connection}

theorem checkNatural_eq_ok {field : String} {n : Int} {m : Nat}
    (accepted : (checkNatural field n : Outcome α Nat) = .ok m) : (m : Int) = n := by
  cases n with
  | ofNat k =>
    cases accepted
    rfl
  | negSucc k => cases accepted

/-- A connection as it is written: its row and its completion number. -/
def Connection.written (c : Connection) : Int × Option Int :=
  (c.index, c.completion.map Subtype.val)

theorem Connection.written_of_ofDraft {d : Draft} {c : Connection}
    (read : (ofDraft d : Outcome α Connection) = .ok c) : c.written = (d.index, d.completion) := by
  unfold ofDraft at read
  obtain ⟨state, -, read⟩ := Outcome.bind_eq_ok.1 read
  obtain ⟨index, accepted, read⟩ := Outcome.bind_eq_ok.1 read
  rw [← checkNatural_eq_ok accepted]
  split at read
  · rename_i unnumbered
    cases read
    rw [unnumbered]
    rfl
  · rename_i n numbered
    split at read
    · cases read
      rw [numbered]
      rfl
    · cases read

variable [Scalar α]

theorem WellHeader.connections_of_ofDraft {d : Draft α} {h : WellHeader α}
    (built : ofDraft d cs = .ok h) : h.connections = cs := by
  unfold ofDraft at built
  split at built
  · obtain ⟨efficiency, -, built⟩ := Outcome.bind_eq_ok.1 built
    obtain ⟨region, -, built⟩ := Outcome.bind_eq_ok.1 built
    cases built
    rfl
  · cases built

namespace Well
variable {d : Draft α}

def RoleDraft.Accepted : RoleDraft α → Prop
  | .injector controls => ∃ c, InjectionControls.ofDraft controls = .ok c
  | .producer limits controls =>
    (∃ l, EconomicLimits.ofDraft limits = .ok l) ∧ ∃ c, ProductionControls.ofDraft controls = .ok c

theorem connections_of_ofDraft {w : Well α} (built : ofDraft d = .ok w) :
    d.connections.mapM Connection.ofDraft =
      (.ok w.header.connections : Outcome α (List Connection)) := by
  unfold ofDraft at built
  obtain ⟨cs, read, built⟩ := Outcome.bind_eq_ok.1 built
  rw [read]
  split at built
  · obtain ⟨controls, -, built⟩ := Outcome.bind_eq_ok.1 built
    obtain ⟨header, accepted, built⟩ := Outcome.bind_eq_ok.1 built
    cases built
    rw [← WellHeader.connections_of_ofDraft accepted]
    rfl
  · obtain ⟨limits, -, built⟩ := Outcome.bind_eq_ok.1 built
    obtain ⟨controls, -, built⟩ := Outcome.bind_eq_ok.1 built
    obtain ⟨header, accepted, built⟩ := Outcome.bind_eq_ok.1 built
    cases built
    rw [← WellHeader.connections_of_ofDraft accepted]
    rfl

theorem ofDraft_of_not_nodup (read : d.connections.mapM Connection.ofDraft =
      (.ok cs : Outcome α (List Connection)))
    (accepted : d.role.Accepted) (repeated : ¬ (cs.map Connection.index).Nodup) :
    ofDraft d = .error (.duplicateConnections (cs.map Connection.index)) := by
  have refused : WellHeader.ofDraft d.header cs =
      .error (.duplicateConnections (cs.map Connection.index)) := by
    rw [WellHeader.ofDraft, dif_neg repeated]
  unfold ofDraft
  rw [read, Outcome.ok_bind]
  cases role : d.role with
  | injector controls =>
    rw [role] at accepted
    obtain ⟨c, controls⟩ := accepted
    simp only [controls, refused, Outcome.ok_bind, Outcome.error_bind]
  | producer limits controls =>
    rw [role] at accepted
    obtain ⟨⟨l, limits⟩, c, controls⟩ := accepted
    simp only [limits, controls, refused, Outcome.ok_bind, Outcome.error_bind]

/-- The completions of a well that is built partition the connections that it is written with, and a
well with two connections of one index is refused. -/
theorem completions_partition :
    (∀ (d : Draft α) (w : Well α), ofDraft d = .ok w →
      w.header.connections.map Connection.written =
        (d.connections.map fun c => (c.index, c.completion)) ∧
      Completes w.header.connections w.header.completions) ∧
    (∀ (d : Draft α) (cs : List Connection), d.connections.mapM Connection.ofDraft =
        (.ok cs : Outcome α (List Connection)) → d.role.Accepted →
      ∀ (i j : Nat) (before : i < j) (inside : j < cs.length), cs[i].index = cs[j].index →
        ofDraft d = .error (.duplicateConnections (cs.map Connection.index)) ∧
        (Fault.duplicateConnections (cs.map Connection.index) : Fault α).kind = .validation) := by
  refine ⟨fun d w built => ⟨?_, ?_⟩, fun d cs read accepted i j before inside same => ⟨?_, rfl⟩⟩
  · exact Outcome.map_eq_of_mapM (connections_of_ofDraft built) fun _ _ =>
      Connection.written_of_ofDraft
  · exact completes_completionsOf w.header.distinct
  · apply ofDraft_of_not_nodup read accepted
    intro distinct
    rw [List.Nodup, List.pairwise_map, List.pairwise_iff_getElem] at distinct
    exact distinct i j (before.trans inside) inside before same

section Example

def writtenWith (connections : List Connection.Draft) : Draft ℚ where
  header := { name := "I1", groupName := "FIELD" }
  connections
  role := .injector { fluid := "water" }

/-- Completion 7 has two connections with two others in between. -/
def scattered : List Connection.Draft :=
  [{ index := 3, completion := some 7 }, { index := 0 }, { index := 1, completion := some 1 },
    { index := 5, completion := some 7, state := "shut" }, { index := 6 }]

theorem scattered_partition :
    (∃ w : Well ℚ, ofDraft (writtenWith scattered) = .ok w ∧
      w.header.completions = [(7, [3, 5]), (-1, [0]), (1, [1]), (-7, [6])] ∧
      Completes w.header.connections w.header.completions) ∧
    ofDraft (writtenWith (scattered ++ [{ index := 1 }])) =
      .error (.duplicateConnections [3, 0, 1, 5, 6, 1]) := by
  obtain ⟨partition, refuse⟩ := completions_partition (α := ℚ)
  constructor
  · have built : ((ofDraft (writtenWith scattered)).toOption.map fun w => w.header.completions) =
        some [(7, [3, 5]), (-1, [0]), (1, [1]), (-7, [6])] := by
      decide +kernel
    cases written : ofDraft (writtenWith scattered) with
    | error fault =>
      rw [written] at built
      cases built
    | ok w =>
      rw [written] at built
      exact ⟨w, rfl, Option.some.inj built, (partition _ w written).2⟩
  · have read : ((writtenWith (scattered ++ [{ index := 1 }])).connections.mapM
        Connection.ofDraft : Outcome ℚ (List Connection)) =
        .ok [⟨3, some ⟨7, by decide⟩, .open⟩, ⟨0, none, .open⟩, ⟨1, some ⟨1, by decide⟩, .open⟩,
          ⟨5, some ⟨7, by decide⟩, .shut⟩, ⟨6, none, .open⟩, ⟨1, none, .open⟩] := rfl
    exact (refuse _ _ read ⟨_, rfl⟩ 2 5 (by decide) (by decide) rfl).1

end Example

end Well
end Construction

end WellControl
