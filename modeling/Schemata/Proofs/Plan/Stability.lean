import Mathlib.Data.List.Find
import Schemata.Proofs.Plan.Cycles

/-!
# Proofs — the order of tables is stable

The sort leaves no table waiting unless two of them depend on each other (`Dependencies.Cyclic`).
Where none do, many orders may respect the dependencies.  The sort gives the one of them that takes
at each place, among the tables whose needs are all placed, the one that was declared first
(`Dependencies.Earliest`).

* `cyclic_iff` — some table waits exactly if two depend on each other.
* `earliest_of_sort` — what is placed next was declared first among the tables that may be.
* `eq_of_earliest` — no other order is like that.
* `place_congr` — what a table needs matters only as far as the list goes.
* `sorted_isStable` — all of it, for what the sort answers and for its warning.
-/

namespace Schemata

/-- What is found stands no later than anything else that passes the test. -/
theorem idxOf_le_of_find? {α : Type} [BEq α] [LawfulBEq α] {p : α → Bool} {xs : List α} {a b : α}
    (h : xs.find? p = some a) (hb : p b = true) : xs.idxOf a ≤ xs.idxOf b := by
  obtain ⟨ha, as, bs, rfl, hfail⟩ := List.find?_eq_some_iff_append.mp h
  have hnot : ∀ c, p c = true → c ∉ as := fun c hc hmem => by simpa [hc] using hfail c hmem
  rw [List.idxOf_append_of_notMem (hnot a ha), List.idxOf_append_of_notMem (hnot b hb),
    List.idxOf_cons_self]
  exact Nat.le_add_right _ _

namespace Dependencies

/-- Two tables of the list depend on each other, whether through others or not: they lie on a
cycle. -/
def Cyclic (deps : Dependencies) (tables : List String) : Prop :=
  ∃ t u, t ≠ u ∧ Relation.TransGen (deps.Needs tables) t u ∧
    Relation.TransGen (deps.Needs tables) u t

/-- Every table comes after those of the list that it depends on, itself excepted. -/
def Respects (deps : Dependencies) (tables order : List String) : Prop :=
  ∀ t u, deps.Needs tables t u → order.idxOf u < order.idxOf t

/-- The table may be placed after the given ones: it is not among them, and what it needs is. -/
structure Ready (deps : Dependencies) (tables placed : List String) (t : String) : Prop where
  mem : t ∈ tables
  notMem : t ∉ placed
  needs : ∀ u, deps.Needs tables t u → u ∈ placed

/-- At each place stands the table that is declared first among those that may be placed there. -/
def Earliest (deps : Dependencies) (tables order : List String) : Prop :=
  ∀ pre t post, order = pre ++ t :: post →
    deps.Ready tables pre t ∧
      ∀ u, deps.Ready tables pre u → tables.idxOf t ≤ tables.idxOf u

variable {deps deps' : Dependencies} {tables : List String}

/-! ### Cycles -/

/-- A cycle leads from a table to another one and back, since no table needs itself. -/
theorem cyclic_iff_exists_transGen :
    deps.Cyclic tables ↔ ∃ t, Relation.TransGen (deps.Needs tables) t t := by
  constructor
  · rintro ⟨t, u, -, htu, hut⟩
    exact ⟨t, htu.trans hut⟩
  · rintro ⟨t, hcycle⟩
    obtain ⟨u, h, hback⟩ := Relation.TransGen.head'_iff.mp hcycle
    have hne : u ≠ t := h.2.2.2
    refine ⟨t, u, hne.symm, .single h, ?_⟩
    exact (Relation.reflTransGen_iff_eq_or_transGen.mp hback).resolve_left hne.symm

/-- **A table waits** exactly if two of them depend on each other. -/
theorem cyclic_iff : deps.Cyclic tables ↔ (deps.sort tables).2 ≠ [] := by
  rw [cyclic_iff_exists_transGen]
  constructor
  · rintro ⟨t, hcycle⟩
    obtain ⟨u, h, -⟩ := Relation.TransGen.head'_iff.mp hcycle
    exact List.ne_nil_of_mem (mem_stuck_iff.mpr ⟨h.1, t, .refl, hcycle⟩)
  · intro hne
    obtain ⟨t, ht⟩ := List.exists_mem_of_ne_nil _ hne
    obtain ⟨-, u, -, hcycle⟩ := mem_stuck_iff.mp ht
    exact ⟨u, hcycle⟩

theorem sort_perm_of_not_cyclic (h : ¬ deps.Cyclic tables) : (deps.sort tables).1.Perm tables := by
  have hperm := deps.sort_perm tables
  rwa [not_not.mp (cyclic_iff.not.mp h), List.append_nil] at hperm

/-- Where nothing waits, every table comes after those that it depends on. -/
theorem respects_sort (h : ¬ deps.Cyclic tables) : deps.Respects tables (deps.sort tables).1 :=
  fun _ _ hneeds =>
    (idxOf_lt_of_placed ((sort_perm_of_not_cyclic h).mem_iff.mpr hneeds.1) hneeds).2

/-! ### The table that is taken -/

/-- Among the tables that remain and may be placed next, the one that is stands first. -/
theorem idxOf_le_of_place {needs : String → List String} {placed remaining pre post : List String}
    {t u : String} (hnodup : remaining.Nodup)
    (h : (place needs placed remaining).1 = pre ++ t :: post) (hu : u ∈ remaining) (hpre : u ∉ pre)
    (hneeds : ∀ v ∈ needs u, v ∈ placed ∨ v ∈ pre) : remaining.idxOf t ≤ remaining.idxOf u := by
  induction placed, remaining using place.induct needs generalizing pre with
  | case1 placed remaining hnone =>
      rw [place_of_stuck hnone] at h
      exact absurd h (by simp)
  | case2 placed remaining first hready _ _ _ _ ih =>
      have hperm := place_perm needs (first :: placed) (remaining.erase first)
      rw [place_of_ready hready] at h
      cases pre with
      | nil =>
          obtain ⟨rfl, -⟩ := List.cons.inj h
          refine idxOf_le_of_find? hready (List.all_eq_true.mpr fun v hv => ?_)
          simpa using hneeds v hv
      | cons p pre =>
          obtain ⟨rfl, htail⟩ := List.cons.inj h
          rw [List.mem_cons, not_or] at hpre
          have hu' : u ∈ remaining.erase first := (List.mem_erase_of_ne hpre.1).mpr hu
          have ht : t ∈ remaining.erase first :=
            hperm.mem_iff.mp (List.mem_append_left _ (htail ▸ by simp))
          have hle := ih (hnodup.erase first) htail hu' hpre.2 fun v hv => by
            rcases hneeds v hv with hplaced | hmem
            · exact .inl (List.mem_cons_of_mem _ hplaced)
            · rcases List.mem_cons.mp hmem with rfl | hmem
              · exact .inl List.mem_cons_self
              · exact .inr hmem
          -- what remains keeps its order when the first table is taken out
          rw [← Nat.not_lt] at hle ⊢
          rwa [← idxOf_lt_iff_of_sublist List.erase_sublist hnodup hu' ht]

/-- **What is placed next** was declared first among the tables that may be. -/
theorem earliest_of_sort (hnodup : tables.Nodup) : deps.Earliest tables (deps.sort tables).1 := by
  intro pre t post hsplit
  have hperm := deps.sort_perm tables
  have hplaced : (deps.sort tables).1.Nodup := (List.nodup_append.mp (hperm.nodup_iff.mpr hnodup)).1
  have ht : t ∈ (deps.sort tables).1 := by rw [hsplit]; simp
  refine ⟨⟨hperm.mem_iff.mp (List.mem_append_left _ ht), ?_, fun u hu => ?_⟩, fun u hu => ?_⟩
  · rw [hsplit] at hplaced
    exact fun hpre => (List.nodup_append.mp hplaced).2.2 t hpre t List.mem_cons_self rfl
  · exact (place_ready hsplit hu.mem_within).resolve_left List.not_mem_nil
  · refine idxOf_le_of_place hnodup hsplit hu.mem hu.notMem fun v hv => .inr ?_
    obtain ⟨hdepends, hv⟩ := mem_within_iff.mp hv
    exact hu.needs v ⟨hu.mem, hv, hdepends⟩

/-- **No other order** takes the table that is declared first at each place. -/
theorem eq_of_earliest {order other : List String} (h : deps.Earliest tables order)
    (h' : deps.Earliest tables other) (hlength : order.length = other.length) : order = other := by
  -- whatever both begin with, both go on with the same table
  suffices hrest : ∀ pre xs ys, order = pre ++ xs → other = pre ++ ys → xs.length = ys.length →
      xs = ys from hrest [] order other rfl rfl hlength
  intro pre xs
  induction xs generalizing pre with
  | nil =>
      intro ys _ _ hlength
      exact (List.length_eq_zero_iff.mp hlength.symm).symm
  | cons t xs ih =>
      intro ys hxs hys hlength
      cases ys with
      | nil => cases hlength
      | cons u ys =>
          obtain ⟨ht, hfirst⟩ := h pre t xs hxs
          obtain ⟨hu, hfirst'⟩ := h' pre u ys hys
          obtain rfl : t = u :=
            (List.idxOf_inj ht.mem).mp (Nat.le_antisymm (hfirst u hu) (hfirst' t ht))
          rw [ih (pre ++ [t]) ys (by simpa using hxs) (by simpa using hys) (by simpa using hlength)]

/-! ### What does not matter -/

section

variable {needs needs' : String → List String} {placed remaining : List String}

/-- Which table is ready depends only on what those that remain need, in whatever order. -/
theorem find?_ready_congr (h : ∀ t ∈ remaining, ∀ u, u ∈ needs t ↔ u ∈ needs' t) :
    remaining.find? (fun t => (needs t).all placed.contains) =
      remaining.find? fun t => (needs' t).all placed.contains :=
  List.find?_congr fun t ht => by simp only [List.all_eq, h t ht]

theorem place_congr (h : ∀ t ∈ remaining, ∀ u, u ∈ needs t ↔ u ∈ needs' t) :
    place needs placed remaining = place needs' placed remaining := by
  induction placed, remaining using place.induct needs with
  | case1 placed remaining hnone =>
      rw [place_of_stuck hnone, place_of_stuck ((find?_ready_congr h).symm.trans hnone)]
  | case2 placed remaining t hready _ _ _ _ ih =>
      have hready' := (find?_ready_congr h).symm.trans hready
      rw [place_of_ready hready, place_of_ready hready',
        ih fun u hu => h u (List.mem_of_mem_erase hu)]

end

/-- **The order of tables** depends on the dependencies between them alone. -/
theorem sort_congr (h : ∀ t ∈ tables, ∀ u ∈ tables, u ≠ t → (u ∈ deps'.of t ↔ u ∈ deps.of t)) :
    deps'.sort tables = deps.sort tables := by
  refine place_congr fun t ht u => ?_
  rw [mem_within_iff, mem_within_iff]
  constructor
  · rintro ⟨⟨hdep, hne⟩, hu⟩
    exact ⟨⟨(h t ht u hu hne).mp hdep, hne⟩, hu⟩
  · rintro ⟨⟨hdep, hne⟩, hu⟩
    exact ⟨⟨(h t ht u hu hne).mpr hdep, hne⟩, hu⟩

/-! ### The sort -/

/-- **The sort is stable.**  It answers with all tables of the list.  It warns once if two of them
depend on each other, of the tables that wait, and else not at all.  Then the order respects the
dependencies, and among all orders that do it is the one that takes at each place the table that is
declared first.  Only what the tables of the list depend on in the list, other than themselves,
matters. -/
theorem sorted_isStable {ε : Type} (deps : Dependencies) {tables : List String}
    (hnodup : tables.Nodup) :
    ∃ order, (sorted (ε := ε) deps tables).outcome = .ok order ∧ order.Perm tables ∧
      (deps.Cyclic tables → ∃ stuck : List String, stuck.Sublist tables ∧
        (∀ t, t ∈ stuck ↔ t ∈ tables ∧ deps.Waits tables t) ∧
        (sorted (ε := ε) deps tables).entries =
          [⟨.warning, "Foreign-key cycle between tables " ++ ", ".intercalate stuck ++
            "; creating them in declaration order"⟩]) ∧
      (¬ deps.Cyclic tables →
        (sorted (ε := ε) deps tables).entries = [] ∧ deps.Respects tables order ∧
        ∀ other : List String, other.Perm tables →
          (deps.Earliest tables other ↔ other = order)) ∧
      ∀ deps' : Dependencies,
        (∀ t ∈ tables, ∀ u ∈ tables, u ≠ t → (u ∈ deps'.of t ↔ u ∈ deps.of t)) →
        sorted (ε := ε) deps' tables = sorted deps tables := by
  refine ⟨_, sorted_outcome deps tables, deps.sort_perm tables, fun hcyclic => ?_,
    fun hcyclic => ?_, fun deps' h => ?_⟩
  · refine ⟨_, stuck_sublist deps tables, fun t => mem_stuck_iff, ?_⟩
    have hstuck : ¬ (deps.sort tables).2.isEmpty = true := by
      simpa using cyclic_iff.mp hcyclic
    exact if_neg hstuck
  · have hstuck : (deps.sort tables).2 = [] := not_not.mp (cyclic_iff.not.mp hcyclic)
    have hperm := sort_perm_of_not_cyclic hcyclic
    have hsorted : deps.Earliest tables (deps.sort tables).1 := earliest_of_sort hnodup
    rw [hstuck, List.append_nil]
    refine ⟨if_pos (List.isEmpty_iff.mpr hstuck), respects_sort hcyclic, fun other hother => ?_⟩
    constructor
    · exact fun h => eq_of_earliest h hsorted (hother.trans hperm.symm).length_eq
    · rintro rfl
      exact hsorted
  · unfold sorted
    rw [sort_congr h]

/-- Comments belong to posts and users and may answer each other, and posts belong to users. -/
def threads : Dependencies :=
  [("comment", ["post", "user", "comment", "audit"]), ("post", ["user"])]

/-- What comments answer, and a table that is not listed, do not matter to the order. -/
theorem threads_sorted :
    ["comment", "tag", "post", "user"].Nodup ∧
      ¬ threads.Cyclic ["comment", "tag", "post", "user"] ∧
      (sorted (ε := Unit) threads ["comment", "tag", "post", "user"]).entries = [] ∧
      threads.Earliest ["comment", "tag", "post", "user"] ["tag", "user", "post", "comment"] ∧
      sorted (ε := Unit) [("post", ["user"]), ("comment", ["user", "post"])]
          ["comment", "tag", "post", "user"] =
        sorted threads ["comment", "tag", "post", "user"] := by
  have hnodup : ["comment", "tag", "post", "user"].Nodup := by decide
  obtain ⟨order, houtcome, hperm, -, hsorted, hcongr⟩ := @sorted_isStable Unit threads _ hnodup
  have hcyclic : ¬ threads.Cyclic ["comment", "tag", "post", "user"] := by
    rw [cyclic_iff_exists_transGen]
    rintro ⟨t, hcycle⟩
    refine not_transGen_self_of_rank ["tag", "user", "post", "comment"].idxOf ?_ t hcycle
    rintro t u ⟨ht, hu, hdepends⟩
    have hlater : ∀ t ∈ ["comment", "tag", "post", "user"], ∀ u ∈ threads.of t, u ≠ t →
        u ∈ ["comment", "tag", "post", "user"] →
        ["tag", "user", "post", "comment"].idxOf u < ["tag", "user", "post", "comment"].idxOf t := by
      decide
    exact hlater t ht u hdepends.1 hdepends.2 hu
  obtain ⟨hentries, -, hearliest⟩ := hsorted hcyclic
  have horder : (sorted (ε := Unit) threads ["comment", "tag", "post", "user"]).outcome =
      .ok ["tag", "user", "post", "comment"] := by with_unfolding_all rfl
  obtain rfl := Except.ok.inj (horder.symm.trans houtcome)
  exact ⟨hnodup, hcyclic, hentries, (hearliest _ hperm).mpr rfl, hcongr _ (by decide)⟩

end Dependencies

end Schemata
