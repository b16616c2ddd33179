import Schemata.Proofs.Outcome
import Schemata.Proofs.Shape.Writing

/-!
# Proofs — shapes — what is read is expressible

Reading a block makes no shape but one that a block can express: its keys and the names of its types
are words, and no key stands twice in one object, at any depth (`Shape.isExpressible_ofText`).
-/

namespace Schemata.Shape

variable {b : Block} {ps qs : List Piece}

/-- The words among some pieces are words. -/
def Worded (ps : List Piece) : Prop :=
  ∀ text offset, .word text offset ∈ ps → IsWord (String.ofList text)

theorem Worded.suffix (h : Worded ps) (hqs : qs <:+ ps) : Worded qs := fun text offset hmem =>
  h text offset (hqs.subset hmem)

/-- A text is cut into words and signs. -/
theorem worded_pieces {offset : Nat} {cs : List Char} (h : pieces offset cs = .ok ps) :
    Worded ps := by
  fun_induction pieces offset cs generalizing ps with
  | case1 offset =>
      cases h
      exact fun _ _ hmem => by cases hmem
  | case2 offset c cs hblank ih => exact ih h
  | case3 offset c cs hblank hstart tail =>
      rename_i ih
      obtain ⟨rest, hrest, rfl⟩ := Except.map_eq_ok_iff.mp h
      intro text k hmem
      rcases List.mem_cons.mp hmem with heq | hmem
      · cases heq
        refine ⟨c, tail, String.toList_ofList, hstart, fun d hd => ?_⟩
        exact List.all_eq_true.mp List.all_takeWhile d hd
      · exact ih hrest text k hmem
  | case4 offset c cs hblank hstart hsign ih =>
      obtain ⟨rest, hrest, rfl⟩ := Except.map_eq_ok_iff.mp h
      intro text k hmem
      rcases List.mem_cons.mp hmem with heq | hmem
      · cases heq
      · exact ih hrest text k hmem
  | case5 => cases h

/-- Behind a sign the rest of the pieces is left. -/
theorem expectSign_suffix {c : Char} (h : expectSign b c ps = .ok qs) : qs <:+ ps := by
  unfold expectSign at h
  split at h
  · cases h
  · split at h <;> cases h
    exact List.suffix_cons _ _

theorem expectWord_suffix {problem : ShapeProblem} {w : String}
    (h : expectWord b problem ps = .ok (w, qs)) : qs <:+ ps := by
  unfold expectWord at h
  split at h <;> cases h
  exact List.suffix_cons _ _

theorem isWord_of_expectWord {problem : ShapeProblem} {w : String} (hps : Worded ps)
    (h : expectWord b problem ps = .ok (w, qs)) : IsWord w := by
  unfold expectWord at h
  split at h <;> cases h
  exact hps _ _ List.mem_cons_self

/-- Behind a sign or none the rest of the pieces is left. -/
theorem optionalSign_suffix (c : Char) (ps : List Piece) : (optionalSign c ps).2 <:+ ps := by
  unfold optionalSign
  split
  · exact List.suffix_rfl
  · split
    · exact List.suffix_cons _ _
    · exact List.suffix_rfl

theorem openBrace?_suffix {first : Nat} (h : openBrace? ps = some (first, qs)) : qs <:+ ps := by
  unfold openBrace? at h
  split at h
  · cases h
  · split at h <;> cases h
    exact List.suffix_cons _ _

/-- Behind an array mark the rest of the pieces is left. -/
theorem arrayMark_suffix {isArray : Bool} (h : arrayMark b ps = .ok (isArray, qs)) : qs <:+ ps := by
  have hsuffix := optionalSign_suffix '[' ps
  unfold arrayMark at h
  split at h
  next rest heq =>
    rw [heq] at hsuffix
    cases hsign : expectSign b ']' rest with
    | error e => rw [hsign] at h; cases h
    | ok ps' =>
        rw [hsign] at h
        cases h
        exact (expectSign_suffix hsign).trans hsuffix
  next rest heq =>
    rw [heq] at hsuffix
    cases h
    exact hsuffix

/-- Behind the front of an entry the rest of the pieces is left. -/
theorem entryHead_suffix {name : String} {isOptional : Bool}
    (h : entryHead b ps = .ok ((name, isOptional), qs)) : qs <:+ ps := by
  unfold entryHead at h
  obtain ⟨⟨w, ps₁⟩, hw, h⟩ := Except.bind_eq_ok_iff.mp h
  obtain ⟨ps₂, hs, h⟩ := Except.bind_eq_ok_iff.mp h
  cases h
  exact ((expectSign_suffix hs).trans (optionalSign_suffix '?' ps₁)).trans (expectWord_suffix hw)

/-- The name of an entry is a word. -/
theorem isWord_of_entryHead {name : String} {isOptional : Bool} (hps : Worded ps)
    (h : entryHead b ps = .ok ((name, isOptional), qs)) : IsWord name := by
  unfold entryHead at h
  obtain ⟨⟨w, ps₁⟩, hw, h⟩ := Except.bind_eq_ok_iff.mp h
  obtain ⟨ps₂, -, h⟩ := Except.bind_eq_ok_iff.mp h
  cases h
  exact isWord_of_expectWord hps hw

/-- What is read of an object can be expressed, and its keys are none of those before. -/
theorem areExpressible_readBody {seen : List String} {body : Body ps}
    (h : readBody b seen ps = .ok body) (hps : Worded ps) :
    AreExpressible body.entries ∧ (∀ e ∈ body.entries, e.name ∉ seen) ∧ body.rest <:+ ps := by
  fun_induction readBody b seen ps with
  | case1 | case3 | case5 | case6 | case7 | case8 | case9 => cases h
  | case2 seen p ps hclose =>
      cases h
      exact ⟨.nil, nofun, List.suffix_cons p ps⟩
  | case4 seen p ps hclose hseparator body' hbody ih =>
      cases h
      obtain ⟨hes, hfresh, hrest⟩ := ih hbody (hps.suffix (List.suffix_cons p ps))
      exact ⟨hes, hfresh, hrest.trans (List.suffix_cons p ps)⟩
  | case10 seen p ps hclose hseparator name isOptional ps₁ hhead h₁ read type htype isArray ps₃ hmark
      h₂ h₃ hseen entry body' hbody ihInside =>
      rename_i ihRest
      cases h
      have hname := isWord_of_entryHead hps hhead
      have hps₁ := entryHead_suffix hhead
      have htyped : type.rest <:+ ps₁ ∧ (IsWord type.typeName ∧ type.shape = none ∨
          ∃ raw inner position, type.typeName = "object" ∧
            type.shape = some ⟨raw, false, inner, position⟩ ∧ AreExpressible inner) := by
        dsimp only [read] at htype
        split at htype
        next first ps₂ hopen =>
            split at htype
            next => cases htype
            next inside hinside =>
                cases htype
                have hps₂ := openBrace?_suffix hopen
                obtain ⟨hinner, -, hrest⟩ :=
                  ihInside first ps₂ hopen hinside (hps.suffix (hps₂.trans hps₁))
                exact ⟨hrest.trans hps₂, .inr ⟨_, _, _, rfl, rfl, hinner⟩⟩
        next hopen =>
            split at htype
            next => cases htype
            next w qs hw =>
                cases htype
                exact ⟨expectWord_suffix hw, .inl ⟨isWord_of_expectWord (hps.suffix hps₁) hw, rfl⟩⟩
      obtain ⟨hrest, htyped⟩ := htyped
      have hps₃ := ((arrayMark_suffix hmark).trans hrest).trans hps₁
      obtain ⟨hes, hfresh, hrest'⟩ := ihRest hbody (hps.suffix hps₃)
      have hnew : name ∉ body'.entries.map ShapeEntry.name := fun hmem => by
        obtain ⟨e, he, rfl⟩ := List.mem_map.mp hmem
        exact hfresh e he List.mem_cons_self
      refine ⟨?_, fun e he => ?_, hrest'.trans hps₃⟩
      · rcases htyped with ⟨hword, hnone⟩ | ⟨raw, inner, position, hobject, hsome, hinner⟩
        · have hentry : entry = ⟨name, type.typeName, isOptional, isArray, none⟩ := by
            simp only [entry, hnone, Option.map_none]
          exact hentry ▸ .leaf hname hword hnew hes
        · have hentry : entry =
              ⟨name, "object", isOptional, isArray, some ⟨raw, isArray, inner, position⟩⟩ := by
            simp only [entry, hobject, hsome, Option.map_some]
          exact hentry ▸ .object hname hnew hinner hes
      · rcases List.mem_cons.mp he with rfl | he
        · exact fun hmem => hseen (List.contains_iff_mem.mpr hmem)
        · exact fun hmem => hfresh e he (List.mem_cons_of_mem _ hmem)

/-- **What is read** from a block is a shape that a block can express. -/
theorem isExpressible_ofText {raw : String} {position : Position} {isArray : Bool} {s : Shape}
    (h : ofText raw position isArray = .ok s) : s.IsExpressible := by
  unfold ofText at h
  obtain ⟨ps, hps, h⟩ := Except.bind_eq_ok_iff.mp h
  obtain ⟨ps', hopen, h⟩ := Except.bind_eq_ok_iff.mp h
  obtain ⟨body, hbody, h⟩ := Except.bind_eq_ok_iff.mp h
  have hworded : Worded ps' :=
    (worded_pieces (Except.mapError_eq_ok_iff.mp hps)).suffix (expectSign_suffix hopen)
  obtain ⟨hes, -, -⟩ := areExpressible_readBody hbody hworded
  split at h
  · cases h
    exact hes
  · cases h

end Schemata.Shape
