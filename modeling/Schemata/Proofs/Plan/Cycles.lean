import Schemata.Proofs.Plan.Order

/-!
# Proofs — the order of tables on cycles

What the sort makes of tables that depend on each other.  A table waits (`Dependencies.Waits`) if a
chain of dependencies leads from it to a table on a cycle, whether it is on one itself or comes
after one.

* `mem_stuck_iff` — the tables that are stuck are those that wait.
* `stuck_sublist` — they keep the order in which they were declared, behind all others.
* `sorted_idxOf_lt_iff` — so a table comes after one that it depends on, unless that one waits and
  is declared later.
-/

namespace Schemata

namespace Dependencies

/-- Of two tables of a list, the one depends on the other. -/
def Needs (deps : Dependencies) (tables : List String) (t u : String) : Prop :=
  t ∈ tables ∧ u ∈ tables ∧ deps.DependsOn t u

/-- A chain of dependencies within the list leads from the table to one on a cycle. -/
def Waits (deps : Dependencies) (tables : List String) (t : String) : Prop :=
  ∃ u, Relation.ReflTransGen (deps.Needs tables) t u ∧ Relation.TransGen (deps.Needs tables) u u

variable {deps : Dependencies} {tables : List String} {t u : String}

theorem Needs.mem_within (h : deps.Needs tables t u) : u ∈ deps.within tables t :=
  mem_within_iff.mpr ⟨h.2.2, h.2.1⟩

/-- What depends on a table that waits, waits. -/
theorem Waits.of_needs (hu : deps.Waits tables u) (h : deps.Needs tables t u) :
    deps.Waits tables t := by
  obtain ⟨v, huv, hcycle⟩ := hu
  exact ⟨v, .head h huv, hcycle⟩

theorem stuck_sublist (deps : Dependencies) (tables : List String) :
    (deps.sort tables).2.Sublist tables :=
  place_sublist _ _ _

/-- What a placed table needs is placed before it. -/
theorem idxOf_lt_of_placed (ht : t ∈ (deps.sort tables).1) (h : deps.Needs tables t u) :
    u ∈ (deps.sort tables).1 ∧ (deps.sort tables).1.idxOf u < (deps.sort tables).1.idxOf t := by
  obtain ⟨pre, post, hsplit, hfirst⟩ := List.eq_append_cons_of_mem ht
  have hu : u ∈ pre := (place_ready hsplit h.mem_within).resolve_left List.not_mem_nil
  rw [hsplit, List.idxOf_append_of_mem hu, List.idxOf_append_of_notMem hfirst, List.idxOf_cons_self]
  exact ⟨List.mem_append_left _ hu, Nat.lt_of_lt_of_le (List.idxOf_lt_length_iff.mpr hu) (by omega)⟩

/-- No placed table waits: the chains from it lead to tables that are placed earlier and earlier. -/
theorem not_waits_of_placed (ht : t ∈ (deps.sort tables).1) : ¬ deps.Waits tables t := by
  rintro ⟨u, hchain, hcycle⟩
  have hu : u ∈ (deps.sort tables).1 := by
    clear hcycle
    induction hchain with
    | refl => exact ht
    | tail _ h ih => exact (idxOf_lt_of_placed ih h).1
  have hearlier : ∀ v, Relation.TransGen (deps.Needs tables) u v → v ∈ (deps.sort tables).1 ∧
      (deps.sort tables).1.idxOf v < (deps.sort tables).1.idxOf u := fun v hv => by
    induction hv with
    | single h => exact idxOf_lt_of_placed hu h
    | tail _ h ih =>
        obtain ⟨hmem, hlt⟩ := idxOf_lt_of_placed ih.1 h
        exact ⟨hmem, Nat.lt_trans hlt ih.2⟩
  exact Nat.lt_irrefl _ (hearlier u hcycle).2

/-- A table that is stuck needs another one that is. -/
theorem exists_stuck_of_stuck (ht : t ∈ (deps.sort tables).2) :
    ∃ u ∈ (deps.sort tables).2, deps.Needs tables t u := by
  obtain ⟨u, hu, -, hplaced⟩ := place_stuck ht
  obtain ⟨hdepends, hmem⟩ := mem_within_iff.mp hu
  have horder := (deps.sort_perm tables).mem_iff.mpr hmem
  exact ⟨u, (List.mem_append.mp horder).resolve_left hplaced,
    (stuck_sublist deps tables).subset ht, hmem, hdepends⟩

/-- A table that is stuck waits: among the stuck tables that do not, one would be the last on every
chain, and what it needs would not be stuck. -/
theorem waits_of_stuck (ht : t ∈ (deps.sort tables).2) : deps.Waits tables t := by
  classical
  by_contra hnot
  have hmem : ∀ v, v ∈ (deps.sort tables).2.filter (fun v => ¬ deps.Waits tables v) ↔
      v ∈ (deps.sort tables).2 ∧ ¬ deps.Waits tables v := by simp
  obtain ⟨u, hu, hlast⟩ := exists_forall_not
    (r := fun u v => Relation.TransGen (deps.Needs tables) u v ∧ ¬ deps.Waits tables u)
    (fun u h => h.2 ⟨u, .refl, h.1⟩) (fun u v w huv hvw => ⟨huv.1.trans hvw.1, huv.2⟩)
    (List.ne_nil_of_mem ((hmem t).mpr ⟨ht, hnot⟩))
  obtain ⟨hstuck, hfree⟩ := (hmem u).mp hu
  obtain ⟨v, hv, h⟩ := exists_stuck_of_stuck hstuck
  exact hlast v ((hmem v).mpr ⟨hv, fun hwaits => hfree (hwaits.of_needs h)⟩) ⟨.single h, hfree⟩

/-- **The tables that are stuck** are those that wait. -/
theorem mem_stuck_iff : t ∈ (deps.sort tables).2 ↔ t ∈ tables ∧ deps.Waits tables t := by
  refine ⟨fun h => ⟨(stuck_sublist deps tables).subset h, waits_of_stuck h⟩, fun ⟨ht, hwaits⟩ => ?_⟩
  have horder := (deps.sort_perm tables).mem_iff.mpr ht
  exact (List.mem_append.mp horder).resolve_left fun hplaced => not_waits_of_placed hplaced hwaits

/-- **Which table comes first.**  The sort answers with all tables of the list.  Of two tables of
which the one depends on the other, the other one comes first unless a chain leads from it to a
cycle and it is declared later. -/
theorem sorted_idxOf_lt_iff {ε : Type} {deps : Dependencies} {tables : List String}
    (hnodup : tables.Nodup) :
    ∃ order, (sorted (ε := ε) deps tables).outcome = .ok order ∧ order.Perm tables ∧
      ∀ t u, deps.Needs tables t u →
        (order.idxOf u < order.idxOf t ↔
          ¬ deps.Waits tables u ∨ tables.idxOf u < tables.idxOf t) := by
  refine ⟨_, sorted_outcome deps tables, deps.sort_perm tables, fun t u h => ?_⟩
  by_cases hwaits : deps.Waits tables u
  · -- both are stuck, and what is stuck keeps its order
    have hstuck : ∀ v ∈ tables, deps.Waits tables v →
        v ∈ (deps.sort tables).2 ∧ v ∉ (deps.sort tables).1 := fun v hv hw =>
      ⟨mem_stuck_iff.mpr ⟨hv, hw⟩, fun hplaced => not_waits_of_placed hplaced hw⟩
    obtain ⟨ht, ht'⟩ := hstuck t h.1 (hwaits.of_needs h)
    obtain ⟨hu, hu'⟩ := hstuck u h.2.1 hwaits
    rw [List.idxOf_append_of_notMem ht', List.idxOf_append_of_notMem hu', Nat.add_lt_add_iff_left,
      idxOf_lt_iff_of_sublist (stuck_sublist deps tables) hnodup hu ht,
        or_iff_right (not_not.mpr hwaits)]
  · refine iff_of_true ?_ (.inl hwaits)
    have horder := (deps.sort_perm tables).mem_iff.mpr h.2.1
    have hu : u ∈ (deps.sort tables).1 :=
      (List.mem_append.mp horder).resolve_right fun hstuck => hwaits (waits_of_stuck hstuck)
    by_cases ht : t ∈ (deps.sort tables).1
    · rw [List.idxOf_append_of_mem hu, List.idxOf_append_of_mem ht]
      exact (idxOf_lt_of_placed ht h).2
    · rw [List.idxOf_append_of_mem hu, List.idxOf_append_of_notMem ht]
      exact Nat.lt_add_right _ (List.idxOf_lt_length_iff.mpr hu)

/-- Customers and their accounts refer to each other, and orders to customers. -/
def accounts : Dependencies :=
  [("order", ["customer"]), ("customer", ["account", "country"]), ("account", ["customer"])]

/-- What comes before the cycle is placed first, and what is declared after it comes last. -/
theorem accounts_sorted :
    ["customer", "account", "order", "country"].Nodup ∧
      ∃ order, (sorted (ε := Unit) accounts ["customer", "account", "order", "country"]).outcome =
          .ok order ∧
        order.idxOf "country" < order.idxOf "customer" ∧
        order.idxOf "customer" < order.idxOf "order" := by
  have hnodup : ["customer", "account", "order", "country"].Nodup := by decide
  obtain ⟨order, houtcome, -, hiff⟩ := @sorted_idxOf_lt_iff Unit accounts _ hnodup
  refine ⟨hnodup, order, houtcome, (hiff _ _ ?_).mpr (.inl ?_), (hiff _ _ ?_).mpr (.inr ?_)⟩
  · exact ⟨by decide, by decide, by decide, by decide⟩
  · -- a country needs nothing, so no chain leads on from it
    rintro ⟨u, hchain, hcycle⟩
    obtain rfl | ⟨v, h, -⟩ := Relation.ReflTransGen.cases_head hchain
    · obtain ⟨v, h, -⟩ := Relation.TransGen.head'_iff.mp hcycle
      exact absurd h.2.2.1 List.not_mem_nil
    · exact absurd h.2.2.1 List.not_mem_nil
  · exact ⟨by decide, by decide, by decide, by decide⟩
  · decide

/-- An order is placed before its customer, to which nothing leads back, if it is declared
before. -/
theorem accounts_missorted :
    accounts.Needs ["order", "customer", "account"] "order" "customer" ∧
      ¬ Relation.TransGen (accounts.Needs ["order", "customer", "account"]) "customer" "order" ∧
      (sorted (ε := Unit) accounts ["order", "customer", "account"]).outcome =
        .ok ["order", "customer", "account"] := by
  refine ⟨⟨by decide, by decide, by decide, by decide⟩, fun hchain => ?_, by with_unfolding_all rfl⟩
  -- no table of the list needs an order
  obtain ⟨t, -, ht, -, hdepends, -⟩ := Relation.TransGen.tail'_iff.mp hchain
  revert ht hdepends
  have : ∀ t ∈ ["order", "customer", "account"], "order" ∉ accounts.of t := by decide
  exact this t

end Dependencies

end Schemata
