import Schemata.Proofs.Schema.Accepted
import Schemata.Proofs.Schema.Breaking
import Schemata.Proofs.Token.Order

/-!
# Proofs — schemas — where models are declared

The tokens of a source that declare what is read from it, whether all of it could be read or not: of
a model, the first one and its name, and of its fields, their names (`Model.IsDeclaredBy`).  They are
found in the source in the order of the declarations (`Reading.models_declared`).

* `Schema.declared_of_scan` — so the names in a schema are words, and its models and fields stand at
  places that come one after the other.
-/

namespace Schemata

open Rule

/-- The token names the field, and the field stands at its place. -/
structure Field.IsNamedBy (t : Token) (f : Field) : Prop where
  kind : t.kind.isName = true
  text : t.text = f.name
  position : t.position = f.position

/-- The tokens that declare a model: the one it stands at, its name, and those of its fields. -/
inductive Model.IsDeclaredBy : List Token → Model → Prop
  | mk {m : Model} {first name : Token} {us : List Token} (position : first.position = m.position)
      (named : name.kind = .identifier) (text : name.text = m.name)
      (fields : List.Forall₂ Field.IsNamedBy us m.fields) : IsDeclaredBy (first :: name :: us) m

/-- The places of a model and of its fields. -/
def Model.places (m : Model) : List Position := m.position :: m.fields.map Field.position

/-- The places of the models and of their fields. -/
def Schema.places (s : Schema) : List Position := s.models.flatMap Model.places

namespace Reading

variable {stop t : Token} {ts rest : List Token}

theorem isNamedBy_foldl_decorate {f : Field} (h : f.IsNamedBy t) (ds : List Decorator) :
    (ds.foldl Field.decorate f).IsNamedBy t := by
  induction ds generalizing f with
  | nil => exact h
  | cons d ds ih =>
      refine ih ?_
      cases d <;> exact ⟨h.kind, h.text, h.position⟩

/-- A field is named by the token that it begins with. -/
theorem isNamedBy_of_fieldNamed {f : Field} (named : t.kind.isName = true)
    (h : fieldNamed t stop ts = .read f rest) : f.IsNamedBy t := by
  have hyields : Yields (fun _ => True) (fun f : Field => f.IsNamedBy t) (fieldNamed t) :=
    yields_bind yields_plainType fun _ _ => yields_bind yields_arrayMark fun _ _ =>
      yields_bind (yields_decorators []) fun ds _ => yields_pure
        (isNamedBy_foldl_decorate ⟨named, rfl, rfl⟩ ds)
  have hfield := hyields stop ts trivial fun _ _ => trivial
  rw [h] at hfield
  exact hfield.1

theorem cons_read_iff {m : Member} {n : Noted (List Member)} {ms : List Member} :
    (n.cons m).reading = .read ms rest ↔ ∃ ms', n.reading = .read ms' rest ∧ ms = m :: ms' := by
  obtain ⟨faults, reading⟩ := n
  cases reading <;> simp [Noted.cons, and_comm, eq_comm]

/-- The fields that are read are named by tokens, in their order, and what is left comes after
them. -/
theorem members_declared {name : String} {ms : List Member}
    (h : (members name stop ts).reading = .read ms rest) :
    ∃ us, List.Forall₂ Field.IsNamedBy us (ms.filterMap Member.field?) ∧ (us ++ rest).Sublist ts := by
  fun_induction members name stop ts generalizing ms with
  | case1 | case4 | case5 | case7 | case8 | case10 => cases h
  | case2 t =>
      cases h
      exact ⟨[], .nil, List.sublist_cons_self t rest⟩
  | case3 t ts _ named f mid hf _ ih =>
      obtain ⟨ms', hread, rfl⟩ := cons_read_iff.mp h
      obtain ⟨us, hus, hsub⟩ := ih hread
      exact ⟨t :: us, .cons (isNamedBy_of_fieldNamed named hf) hus,
        .cons_cons t (hsub.trans (suffix_of_read (leaves_fieldNamed t) hf).sublist)⟩
  | case6 t ts _ _ _ _ names mid hu _ ih =>
      obtain ⟨ms', hread, rfl⟩ := cons_read_iff.mp h
      obtain ⟨us, hus, hsub⟩ := ih hread
      exact ⟨us, hus, (hsub.trans (suffix_of_read leaves_unique hu).sublist).cons t⟩
  | case9 t ts _ _ _ _ _ ih =>
      obtain ⟨us, hus, hsub⟩ := ih h
      exact ⟨us, hus, (hsub.trans (afterArguments_suffix ts).sublist).cons t⟩
  | case11 t ts _ _ _ _ _ ih =>
      obtain ⟨us, hus, hsub⟩ := ih h
      exact ⟨us, hus, hsub.cons t⟩

/-- A model that is read is declared by tokens, and what is left comes after them. -/
theorem model_declared {m : Model} (hstop : stop.kind = .endOfInput)
    (h : (model stop ts).reading = .read m rest) :
    ∃ us, m.IsDeclaredBy us ∧ (us ++ rest).Sublist ts := by
  unfold model at h
  cases hhead : modelHead stop ts with
  | read head mid =>
      obtain ⟨first, name⟩ := head
      obtain ⟨opening, rfl, -, named, -⟩ := (modelHead_read_iff hstop).mp hhead
      rw [hhead] at h
      dsimp only at h
      cases hmembers : members name.text stop mid with
      | mk faults reading =>
          rw [hmembers] at h
          cases reading with
          | read ms left =>
              cases h
              have hread : (members name.text stop mid).reading = .read ms rest := by rw [hmembers]
              obtain ⟨us, hus, hsub⟩ := members_declared hread
              exact ⟨first :: name :: us, .mk rfl named rfl hus,
                .cons_cons first (.cons_cons name (hsub.cons opening))⟩
          | fault e left => cases h
          | broken e => cases h
  | fault e mid => rw [hhead] at h; cases h
  | broken e => rw [hhead] at h; cases h

/-- The models that are read are declared by tokens, in their order. -/
theorem models_declared {found : List Model} {faults : List SyntaxFault}
    (hstop : stop.kind = .endOfInput) (h : Reading.models stop ts = .ok (found, faults)) :
    ∃ uss, List.Forall₂ Model.IsDeclaredBy uss found ∧ uss.flatten.Sublist ts := by
  induction hn : ts.length using Nat.strong_induction_on generalizing ts found faults with
  | _ n ih =>
      cases ts with
      | nil =>
          rw [Reading.models] at h
          cases h
          exact ⟨[], .nil, .refl _⟩
      | cons t ts =>
          cases hmodel : model stop (t :: ts) with
          | mk noted reading =>
              cases reading with
              | read m rest =>
                  rw [models_of_read hmodel] at h
                  obtain ⟨⟨later, faults'⟩, hlater, heq⟩ := Except.map_eq_ok_iff.mp h
                  cases heq
                  obtain ⟨us, hus, hsub⟩ := model_declared hstop (by rw [hmodel])
                  obtain ⟨uss, huss, hsub'⟩ := ih _ (hn ▸ length_lt_of_model hmodel) hlater rfl
                  exact ⟨us :: uss, .cons hus huss, (hsub'.append_left us).trans hsub⟩
              | fault e rest =>
                  rw [models_of_fault hmodel] at h
                  obtain ⟨⟨later, faults'⟩, hlater, heq⟩ := Except.map_eq_ok_iff.mp h
                  cases heq
                  have hlast : (model stop (t :: ts)).reading.IsLastOf (t :: ts) :=
                    model_isLastOf_cons
                  rw [hmodel] at hlast
                  obtain ⟨uss, huss, hsub⟩ := ih _ (hn ▸ length_synchronize_lt hmodel) hlater rfl
                  exact ⟨uss, huss, hsub.trans ((synchronize_suffix rest).trans hlast).sublist⟩
              | broken e =>
                  rw [models_of_broken (by rw [hmodel])] at h
                  cases h

end Reading

/-! ### A source -/

theorem Model.IsDeclaredBy.places_sublist {us : List Token} {m : Model} (h : m.IsDeclaredBy us) :
    m.places.Sublist (us.map Token.position) := by
  cases h with
  | mk position named text fields =>
      rw [Model.places, ← position, List.map_cons, List.map_cons]
      refine .cons_cons _ (.cons _ ?_)
      rw [map_eq_of_forall₂ (fields.imp fun _ _ h => h.position)]

/-- The places in a schema are places of its tokens, in their order. -/
theorem Schema.places_sublist {uss : List (List Token)} {models : List Model}
    (h : List.Forall₂ Model.IsDeclaredBy uss models) :
    (Schema.mk models).places.Sublist (uss.flatten.map Token.position) := by
  unfold places
  induction h with
  | nil => exact .refl _
  | cons hus _ ih =>
      rw [List.flatMap_cons, List.flatten_cons, List.map_append]
      exact hus.places_sublist.append ih

/-- The names of a declared model and of its fields are words, if tokens that may name something
are. -/
theorem Model.IsDeclaredBy.isWord {us : List Token} {m : Model} (h : m.IsDeclaredBy us)
    (hwords : ∀ t ∈ us, t.kind.isName = true → Lexeme.IsWord t.text) :
    Lexeme.IsWord m.name ∧ ∀ f ∈ m.fields, Lexeme.IsWord f.name := by
  cases h with
  | @mk _ first name us position named text fields =>
      refine ⟨text ▸ hwords name (by simp) (by rw [named]; rfl), fun f hf => ?_⟩
      obtain ⟨t, ht, hname⟩ := exists_of_forall₂ fields.flip hf
      exact hname.text ▸ hwords t (by simp [ht]) hname.kind

/-- **Names are words, and places come in order.**  In every schema that is read from a source, with
faults or without, the names of models and fields are words, and each model and each field stands at
a place before those of the next ones. -/
theorem Schema.declared_of_scan {source : String} {s : Schema} {faults : List SyntaxFault}
    (h : Schema.ofTokens (Token.scan source).tokens = .ok ⟨some s, faults⟩) :
    (∀ m ∈ s.models, Lexeme.IsWord m.name ∧ ∀ f ∈ m.fields, Lexeme.IsWord f.name) ∧
      s.places.Pairwise (· < ·) := by
  obtain ⟨body, stop, htokens, hrow, hbody, -⟩ := Token.inOrder_scan source
  obtain ⟨body', stop', htokens', -, hwords⟩ := Token.exists_body source
  obtain ⟨rfl, -⟩ := List.append_inj' (htokens.symm.trans htokens') rfl
  rw [htokens, Schema.ofTokens_append hbody hrow.stopped] at h
  obtain ⟨⟨models, faults'⟩, hmodels, heq⟩ := Except.map_eq_ok_iff.mp h
  cases heq
  obtain ⟨uss, huss, hsub⟩ := Reading.models_declared hrow.stopped hmodels
  refine ⟨fun m hm => ?_, ?_⟩
  · obtain ⟨us, hus, hm⟩ := exists_of_forall₂ huss.flip hm
    refine hm.isWord fun t ht hname => ?_
    obtain ⟨-, armed, c, cs, hfirst⟩ := hwords t (hsub.subset (List.mem_flatten_of_mem hus ht))
    exact Lexeme.isWord_of_first hfirst hname
  · refine List.Pairwise.sublist ((Schema.places_sublist huss).trans
      (hsub.map Token.position)) ?_
    have hbefore := (List.pairwise_append.mp hrow.pairwise).1
    exact List.pairwise_map.mpr (hbefore.imp fun h => h.begins)

end Schemata
