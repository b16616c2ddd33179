import Schemata.Proofs.Schema.Compiled
import Schemata.Proofs.Schema.Recognition
import Schemata.Proofs.Shape.Reading
import Schemata.Proofs.Token.Words

/-!
# Proofs — schemas — the words of an accepted schema

Whatever the rules, the names in an accepted schema are words of the scanner, and its shapes are
those that a block can express (`Schema.IsAccepted.isWorded`).
-/

namespace Schemata

open Grammar

/-- The names in the model are words, and its shapes can be expressed. -/
structure Model.IsWorded (m : Model) : Prop where
  name : Lexeme.IsWord m.name
  fields : ∀ f ∈ m.fields, Lexeme.IsWord f.name ∧ ∀ s, f.shape = some s → s.IsExpressible

namespace Lexeme

theorem isWord_of_first {armed : Bool} {c : Char} {cs : List Char} {kind : TokenKind}
    {value : String} (h : (first armed c cs).kind = .token kind value) (hkind : kind.isName = true) :
    IsWord value := by
  obtain ⟨hstart, rfl, -⟩ := word_of_first h hkind
  exact ⟨c, _, String.toList_ofList, hstart, fun _ hd =>
    List.all_eq_true.mp List.all_takeWhile _ hd⟩

end Lexeme

/-- A part of a row is written by tokens of the row. -/
theorem exists_of_writesRow {α : Type} {Writes : List Token → α → Prop} {ts : List Token}
    {as : List α} (h : WritesRow Writes ts as) {a : α} (ha : a ∈ as) :
    ∃ us, us ⊆ ts ∧ Writes us a := by
  induction h with
  | nil => cases ha
  | cons head tail ih =>
      rcases List.mem_cons.mp ha with rfl | ha
      · exact ⟨_, List.subset_append_left _ _, head⟩
      · obtain ⟨us, hus, written⟩ := ih ha
        exact ⟨us, List.subset_append_of_subset_right _ hus, written⟩

/-- A field that tokens of a source write is one of words. -/
theorem isWorded_of_writesField {ts : List Token} {f : Field}
    (hts : ∀ t ∈ ts, t.kind.isName = true → Lexeme.IsWord t.text) (h : WritesField ts f) :
    Lexeme.IsWord f.name ∧ ∀ s, f.shape = some s → s.IsExpressible := by
  cases h with
  | mk named typed marked decorated distinct =>
      refine ⟨hts _ List.mem_cons_self named, fun s hs => ?_⟩
      cases typed with
      | scalar => cases hs
      | model => cases hs
      | json kind marked raw shape =>
          cases hs
          exact Shape.isExpressible_ofText shape

/-- A field of a model is written by tokens of the model. -/
theorem exists_writesField {ts : List Token} {m : Model} (h : WritesModel ts m) {f : Field}
    (hf : f ∈ m.fields) : ∃ us, us ⊆ ts ∧ WritesField us f := by
  cases h with
  | mk begins named opens members closes =>
      obtain ⟨member, hmember, hfield⟩ := List.mem_filterMap.mp hf
      obtain ⟨us, hus, written⟩ := exists_of_writesRow members hmember
      cases written with
      | unique => cases hfield
      | field written =>
          cases hfield
          exact ⟨us, fun t ht => by simp [hus ht], written⟩

theorem isWorded_of_writesModel {ts : List Token} {m : Model}
    (hts : ∀ t ∈ ts, t.kind.isName = true → Lexeme.IsWord t.text) (h : WritesModel ts m) :
    m.IsWorded := by
  refine ⟨?_, fun f hf => ?_⟩
  · cases h with
    | @mk first name opening closing us ms begins named opens members closes =>
        exact hts name (by simp) (by rw [named]; rfl)
  · obtain ⟨us, hus, written⟩ := exists_writesField h hf
    exact isWorded_of_writesField (fun t ht => hts t (hus ht)) written

/-- A model of an accepted source is written by tokens of it. -/
theorem exists_writesModel {source : String} {strict : Bool} {c : Compilation} {s : Schema}
    (hcompile : (compile source strict).outcome = .ok c) (haccept : c.accept = .ok s) {m : Model}
    (hm : m ∈ s.models) : ∃ ts, ts ⊆ (Token.scan source).tokens ∧
      (∀ t ∈ ts, ∃ armed c cs, (Lexeme.first armed c cs).kind = .token t.kind t.text) ∧
      WritesModel ts m := by
  obtain ⟨hread, -⟩ := Compilation.read_of_accept hcompile haccept
  obtain ⟨body, stop, htokens, hstop, hbody⟩ := Token.exists_body source
  rw [htokens, Schema.ofTokens_append (fun t ht => (hbody t ht).1) hstop] at hread
  obtain ⟨⟨models, faults⟩, hmodels, heq⟩ := Except.map_eq_ok_iff.mp hread
  cases heq
  obtain ⟨ts, hts, written⟩ := exists_of_writesRow ((Reading.models_ok_iff hstop).mp hmodels) hm
  exact ⟨ts, fun t ht => htokens ▸ List.mem_append_left _ (hts ht), fun t ht => (hbody t (hts ht)).2,
    written⟩

/-- **An accepted schema** is one of words. -/
theorem Schema.IsAccepted.isWorded {s : Schema} (h : s.IsAccepted) :
    ∀ m ∈ s.models, m.IsWorded := by
  obtain ⟨source, strict, c, hcompile, haccept⟩ := h
  intro m hm
  obtain ⟨ts, -, hfirst, written⟩ := exists_writesModel hcompile haccept hm
  refine isWorded_of_writesModel (fun t ht hname => ?_) written
  obtain ⟨armed, c, cs, hfirst⟩ := hfirst t ht
  exact Lexeme.isWord_of_first hfirst hname

end Schemata
