import Schemata.Proofs.TypeModule.Clashes

/-!
# Proofs — type modules — sites

Where the blocks of a module come from.  A site is a model, or a shape with the name of its class,
and it is found by an address: the number of the model, and then the numbers of the field and of the
keys down to the shape (`Schema.site?`).

* `Earlier` — the order of addresses: what stands inside a site comes before it, and what stands
  side by side comes as it is numbered.
* `Schema.exists_lists` — the blocks are those of the sites, one for each address, in this order.
-/

namespace Schemata

/-! ### Addresses -/

/-- The order of addresses.  Of two inside the same site, the one with the smaller number comes
first, and the site itself comes after them. -/
def Earlier : List Nat → List Nat → Prop
  | i :: a, j :: b => i < j ∨ i = j ∧ Earlier a b
  | _ :: _, [] => True
  | [], _ => False

/-- No address is earlier than one that is earlier than it. -/
theorem Earlier.asymm {a b : List Nat} (h : Earlier a b) : ¬ Earlier b a := by
  induction a generalizing b with
  | nil => exact h.elim
  | cons i a ih =>
      cases b with
      | nil => exact id
      | cons j b =>
          rintro (hji | ⟨rfl, hba⟩)
          · rcases h with hij | ⟨rfl, -⟩ <;> omega
          · rcases h with hij | ⟨-, hab⟩
            · omega
            · exact ih hab hba

theorem earlier_append (a : List Nat) (k : Nat) (b : List Nat) : Earlier (a ++ k :: b) a := by
  induction a with
  | nil => trivial
  | cons i a ih => exact .inr ⟨rfl, ih⟩

/-- The address of what is next to what an address leads to, or is inside that. -/
def nextDoor : List Nat → List Nat
  | [] => []
  | k :: ks => (k + 1) :: ks

/-- Next door the order is the same. -/
theorem Earlier.nextDoor {a b : List Nat} (h : Earlier a b) :
    Earlier (nextDoor a) (nextDoor b) := by
  cases a with
  | nil => exact h.elim
  | cons i a =>
      cases b with
      | nil => trivial
      | cons j b => exact h.imp Nat.succ_lt_succ fun ⟨hij, hab⟩ => ⟨congrArg _ hij, hab⟩

theorem earlier_zero_cons (a b : List Nat) : Earlier (0 :: a) (nextDoor b) := by
  cases b with
  | nil => trivial
  | cons j b => exact .inl (Nat.succ_pos j)

section

variable {α β γ : Type}

/-- What stands inside one of a row of things, the number of the thing first. -/
def within (find : γ → List Nat → Option α) (xs : List γ) : List Nat → Option α
  | [] => none
  | k :: ks => xs[k]?.bind fun x => find x ks

/-- A row of what is made of all that has an address, in the order of the addresses. -/
structure Lists (make : α → β) (find : List Nat → Option α) (addresses : List (List Nat))
    (row : List β) : Prop where
  made : addresses.map (fun a => (find a).map make) = row.map some
  complete : ∀ a, (find a).isSome → a ∈ addresses
  ordered : addresses.Pairwise Earlier

namespace Lists

variable {make : α → β} {find : List Nat → Option α} {addresses : List (List Nat)}
  {row : List β}

/-- An address is listed exactly if something stands there. -/
theorem mem_iff (h : Lists make find addresses row) {a : List Nat} :
    a ∈ addresses ↔ (find a).isSome := by
  refine ⟨fun ha => ?_, h.complete a⟩
  have hmem : (find a).map make ∈ row.map some := h.made ▸ List.mem_map_of_mem ha
  obtain ⟨b, -, hb⟩ := List.mem_map.mp hmem
  cases hfind : find a with
  | none => rw [hfind] at hb; cases hb
  | some x => rfl

/-- A thing is in the row exactly if it is made of what has an address. -/
theorem mem_row_iff (h : Lists make find addresses row) {b : β} :
    b ∈ row ↔ ∃ a x, find a = some x ∧ make x = b := by
  have hmem : b ∈ row ↔ some b ∈ addresses.map fun a => (find a).map make := by
    rw [h.made]
    simp
  rw [hmem, List.mem_map]
  constructor
  · rintro ⟨a, -, ha⟩
    exact ⟨a, Option.map_eq_some_iff.mp ha⟩
  · rintro ⟨a, x, hx, hb⟩
    exact ⟨a, h.complete a (by rw [hx]; rfl), Option.map_eq_some_iff.mpr ⟨x, hx, hb⟩⟩

/-- The row is made of what stands at the addresses, one by one. -/
theorem forall₂ (h : Lists make find addresses row) :
    List.Forall₂ (fun a b => ∃ x, find a = some x ∧ make x = b) addresses row := by
  have hmade := List.forall₂_eq_eq_eq ▸ h.made
  rw [List.forall₂_map_left_iff, List.forall₂_map_right_iff] at hmade
  exact hmade.imp fun a b hab => Option.map_eq_some_iff.mp hab

/-- What stands inside something comes before it. -/
theorem idxOf_lt (h : Lists make find addresses row) {a b : List Nat} {k : Nat}
    (ha : a ∈ addresses) (hb : a ++ k :: b ∈ addresses) :
    addresses.idxOf (a ++ k :: b) < addresses.idxOf a := by
  have hlt := List.idxOf_lt_length_of_mem ha
  have hlt' := List.idxOf_lt_length_of_mem hb
  rcases Nat.lt_trichotomy (addresses.idxOf (a ++ k :: b)) (addresses.idxOf a) with hlt | heq | hgt
  · exact hlt
  · have hsame := congrArg List.length ((List.idxOf_inj hb).mp heq)
    rw [List.length_append, List.length_cons] at hsame
    omega
  · have hordered := List.pairwise_iff_getElem.mp h.ordered _ _ hlt hlt' hgt
    rw [List.getElem_idxOf, List.getElem_idxOf] at hordered
    exact absurd (earlier_append a k b) hordered.asymm

theorem nil (h : ∀ a, find a = none) : Lists make find [] [] where
  made := rfl
  complete a ha := by rw [h] at ha; cases ha
  ordered := .nil

/-- What is at the empty address comes after what stands inside it. -/
theorem concat (h : Lists make find addresses row) (find' : List Nat → Option α) (x : α)
    (hroot : find' [] = some x) (hinside : ∀ k ks, find' (k :: ks) = find (k :: ks))
    (hnone : find [] = none) :
    Lists make find' (addresses ++ [[]]) (row ++ [make x]) := by
  have hne : ∀ a ∈ addresses, a ≠ [] := by
    rintro a ha rfl
    rw [h.mem_iff, hnone] at ha
    cases ha
  constructor
  · rw [List.map_append, List.map_append, ← h.made]
    congr 1
    · refine List.map_congr_left fun a ha => ?_
      obtain ⟨k, ks, rfl⟩ := List.exists_cons_of_ne_nil (hne a ha)
      rw [hinside]
    · simp [hroot]
  · intro a ha
    cases a with
    | nil => simp
    | cons k ks =>
        rw [hinside] at ha
        exact List.mem_append_left _ (h.complete _ ha)
  · refine List.pairwise_append.mpr ⟨h.ordered, List.pairwise_singleton _ _, fun a ha b hb => ?_⟩
    obtain ⟨k, ks, rfl⟩ := List.exists_cons_of_ne_nil (hne a ha)
    rw [List.mem_singleton.mp hb]
    trivial

/-- What stands inside a row of things is listed thing by thing. -/
theorem exists_within {find : γ → List Nat → Option α} {list : γ → List β} {xs : List γ}
    (h : ∀ x ∈ xs, ∃ addresses, Lists make (find x) addresses (list x)) :
    ∃ addresses, Lists make (within find xs) addresses (xs.flatMap list) := by
  induction xs with
  | nil => exact ⟨[], nil fun a => by cases a <;> rfl⟩
  | cons x xs ih =>
      obtain ⟨⟨first, hfirst⟩, hrest⟩ := List.forall_mem_cons.mp h
      obtain ⟨rest, hrest⟩ := ih hrest
      have hnext : ∀ a, within find (x :: xs) (nextDoor a) = within find xs a := by
        rintro (_ | ⟨k, ks⟩) <;> rfl
      refine ⟨first.map (0 :: ·) ++ rest.map nextDoor, ?_, fun a ha => ?_, ?_⟩
      · rw [List.map_append, List.map_map, List.map_map, List.flatMap_cons, List.map_append,
          ← hfirst.made, ← hrest.made]
        congr 1
        exact List.map_congr_left fun a _ => congrArg (Option.map make) (hnext a)
      · match a, ha with
        | 0 :: ks, ha =>
            exact List.mem_append_left _ (List.mem_map_of_mem (hfirst.complete ks ha))
        | (k + 1) :: ks, ha =>
            exact List.mem_append_right _
              (List.mem_map.mpr ⟨k :: ks, hrest.complete (k :: ks) ha, rfl⟩)
      · refine List.pairwise_append.mpr ⟨?_, ?_, fun a ha b hb => ?_⟩
        · exact List.pairwise_map.mpr (hfirst.ordered.imp fun hab => .inr ⟨rfl, hab⟩)
        · exact List.pairwise_map.mpr (hrest.ordered.imp Earlier.nextDoor)
        · obtain ⟨a, -, rfl⟩ := List.mem_map.mp ha
          obtain ⟨b, -, rfl⟩ := List.mem_map.mp hb
          exact earlier_zero_cons a b

end Lists

end

/-! ### Sites -/

/-- What a block is made of: a model, or a shape with the name of its class. -/
inductive Site where
  | model (m : Model)
  | shape (name : String) (t : Shape)

/-- The shape at an address inside a shape. -/
def Shape.site? (name : String) (t : Shape) : List Nat → Option Site
  | [] => some (.shape name t)
  | k :: ks =>
    t.entries[k]?.bind fun e => e.shape.bind fun u => u.site? (nestedName name e.name) ks

/-- The shape at an address inside the shape of a `json` field. -/
def Field.site? (owner : String) (f : Field) (address : List Nat) : Option Site :=
  if f.typeName = Scalar.json.name then
    f.shape.bind fun t => t.site? (shapeName owner f.name) address
  else none

/-- What stands at an address inside a model. -/
def Model.site? (m : Model) : List Nat → Option Site
  | [] => some (.model m)
  | k :: ks => m.fields[k]?.bind fun f => f.site? (className m.name) ks

/-- What stands at an address of a schema. -/
def Schema.site? (s : Schema) : List Nat → Option Site
  | [] => none
  | k :: ks => s.models[k]?.bind fun m => m.site? ks

/-- The name of the class of a site. -/
def Site.className : Site → String
  | .model m => Schemata.className m.name
  | .shape name _ => name

/-- The block of a site. -/
def Site.block (s : Schema) : Site → TypeBlock
  | .model m => s.ownBlock m
  | .shape name t => t.block name

/-! ### The blocks, site by site -/

theorem entryBlocks_eq (owner : String) (e : ShapeEntry) :
    entryBlocks owner e = optionBlocks (nestedName owner e.name) e.shape := by
  cases e
  rfl

theorem entryListBlocks_eq_flatMap (owner : String) (es : List ShapeEntry) :
    entryListBlocks owner es = es.flatMap (entryBlocks owner) := by
  induction es with
  | nil => rfl
  | cons e es ih => rw [entryListBlocks, ih, List.flatMap_cons]

theorem Shape.blocks_eq (name : String) (t : Shape) :
    t.blocks name = t.entries.flatMap (entryBlocks name) ++ [t.block name] := by
  cases t
  rw [Shape.blocks, entryListBlocks_eq_flatMap]

/-- The shape of a key is smaller than the shape it is in. -/
theorem Shape.sizeOf_lt_of_mem {t u : Shape} {e : ShapeEntry} (he : e ∈ t.entries)
    (hu : e.shape = some u) : sizeOf u < sizeOf t := by
  have hlt := List.sizeOf_lt_of_mem he
  obtain ⟨raw, isArray, entries, position⟩ := t
  obtain ⟨key, typeName, isOptional, isArray', shape⟩ := e
  cases hu
  simp only [Shape.mk.sizeOf_spec, ShapeEntry.mk.sizeOf_spec, Option.some.sizeOf_spec] at hlt ⊢
  omega

variable (s : Schema)

/-- The shapes inside a shape come key by key, and the shape comes after them. -/
theorem Shape.exists_lists (name : String) (t : Shape) :
    ∃ addresses, Lists (Site.block s) (t.site? name) addresses (t.blocks name) := by
  have hentries : ∀ e ∈ t.entries, ∃ addresses, Lists (Site.block s)
      (fun ks => e.shape.bind fun u => u.site? (nestedName name e.name) ks) addresses
      (entryBlocks name e) := by
    intro e he
    rw [entryBlocks_eq]
    cases hshape : e.shape with
    | none => exact ⟨[], .nil fun _ => rfl⟩
    | some u =>
        have := Shape.sizeOf_lt_of_mem he hshape
        exact Shape.exists_lists (nestedName name e.name) u
  obtain ⟨addresses, h⟩ := Lists.exists_within hentries
  rw [Shape.blocks_eq]
  exact ⟨_, h.concat (t.site? name) (.shape name t) rfl (fun _ _ => rfl) rfl⟩
termination_by sizeOf t

/-- The blocks of a field are listed by their addresses. -/
theorem Field.exists_lists (owner : String) (f : Field) :
    ∃ addresses, Lists (Site.block s) (f.site? owner) addresses (f.shapeBlocks owner) := by
  unfold Field.site? Field.shapeBlocks
  split
  · cases f.shape with
    | none => exact ⟨[], .nil fun _ => rfl⟩
    | some t => exact Shape.exists_lists s (shapeName owner f.name) t
  · exact ⟨[], .nil fun _ => rfl⟩

theorem Model.exists_lists (m : Model) :
    ∃ addresses, Lists (Site.block s) m.site? addresses (m.typeBlocks s) := by
  obtain ⟨addresses, h⟩ := @Lists.exists_within _ _ _ (Site.block s) _
    (Field.shapeBlocks (className m.name)) m.fields fun f _ => Field.exists_lists s _ f
  exact ⟨_, h.concat m.site? (.model m) rfl (fun _ _ => rfl) rfl⟩

/-- **The blocks** of a module are those of its sites, each of them once. -/
theorem Schema.exists_lists :
    ∃ addresses, Lists (Site.block s) s.site? addresses s.typeBlocks := by
  obtain ⟨addresses, h⟩ := @Lists.exists_within _ _ _ (Site.block s) _ (Model.typeBlocks s)
    s.models fun m _ => Model.exists_lists s m
  have hsite : s.site? = within Model.site? s.models := funext fun a => by cases a <;> rfl
  exact ⟨addresses, hsite ▸ h⟩

/-! ### What stands inside -/

/-- The shape of a field or of a key. -/
def Site.inner? : Site → Nat → Option Site
  | .model m, k => m.fields[k]?.bind fun f => f.site? (Schemata.className m.name) []
  | .shape name t, k =>
    t.entries[k]?.bind fun e => e.shape.map fun u => .shape (nestedName name e.name) u

/-- What stands inside a site, in a shape, has its number at the end of the address. -/
theorem Shape.site?_concat {name : String} {t : Shape} {a : List Nat} {x : Site}
    (h : t.site? name a = some x) (k : Nat) : t.site? name (a ++ [k]) = x.inner? k := by
  induction a generalizing name t with
  | nil =>
      cases h
      rw [List.nil_append, Shape.site?, Site.inner?]
      refine Option.bind_congr fun e _ => ?_
      cases e.shape <;> rfl
  | cons i a ih =>
      obtain ⟨e, he, h⟩ := Option.bind_eq_some_iff.mp h
      obtain ⟨u, hu, h⟩ := Option.bind_eq_some_iff.mp h
      rw [List.cons_append, Shape.site?, he, Option.bind_some, hu, Option.bind_some, ih h]

/-- What stands inside a site has one number more in its address. -/
theorem Schema.site?_concat {s : Schema} {a : List Nat} {x : Site} (h : s.site? a = some x)
    (k : Nat) : s.site? (a ++ [k]) = x.inner? k := by
  cases a with
  | nil => cases h
  | cons i a =>
      obtain ⟨m, hm, h⟩ := Option.bind_eq_some_iff.mp h
      rw [List.cons_append, Schema.site?, hm, Option.bind_some]
      cases a with
      | nil =>
          cases h
          rfl
      | cons j a =>
          obtain ⟨f, hf, h⟩ := Option.bind_eq_some_iff.mp h
          rw [List.cons_append, Model.site?, hf, Option.bind_some]
          unfold Field.site? at h ⊢
          split at h
          next hjson =>
              obtain ⟨t, ht, h⟩ := Option.bind_eq_some_iff.mp h
              rw [if_pos hjson, ht, Option.bind_some, Shape.site?_concat h]
          next => cases h

end Schemata
