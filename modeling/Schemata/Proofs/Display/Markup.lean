import Mathlib.Data.List.Basic
import Mathlib.Data.List.Infix
import Schemata.Display.Table
import Schemata.Proofs.Outcome

/-!
# Proofs — display — texts as markup

When a text stands for itself where markup is read.  It does if there is no tag in it, no backslash
before a bracket, no name of a pictograph between colons, and no control that is left out
(`Markup.IsPlain`); and without colons, only then (`Grid.cell_eq_iff`).

What markup takes away are tags and backslashes, and nothing is put in their place
(`Markup.raw_sublist`).  So a text that is shown in full has none of them.
-/

namespace Schemata

open Display

/-- A text begins with what a test accepts. -/
theorem eq_takeWhile_append_drop {α : Type} (p : α → Bool) (xs : List α) :
    xs = xs.takeWhile p ++ xs.drop (xs.takeWhile p).length := by
  conv_lhs => rw [← List.take_append_drop (xs.takeWhile p).length xs]
  rw [← List.prefix_iff_eq_take.mp (List.takeWhile_prefix p)]

namespace Pictograph

/-- No name between colons stands for a pictograph. -/
def IsPictureless (cs : List Char) : Prop :=
  ∀ code, ':' :: (code ++ [':']) <:+: cs → (∀ d ∈ code, d ≠ ':' ∧ Text.isBlank d = false) →
    ofCode? (String.ofList code) = none

theorem IsPictureless.of_infix {cs ds : List Char} (h : IsPictureless ds) (hcs : cs <:+: ds) :
    IsPictureless cs :=
  fun code hcode => h code (hcode.trans hcs)

theorem isPictureless_of_not_mem {cs : List Char} (h : ':' ∉ cs) : IsPictureless cs :=
  fun _ hcode => absurd (hcode.subset List.mem_cons_self) h

/-- A text without pictographs is drawn as it is. -/
theorem drawn_of_isPictureless {cs : List Char} (h : IsPictureless cs) : drawn cs = cs := by
  fun_induction drawn cs with
  | case1 => rfl
  | case2 c cs code hcode ih =>
      rw [Bool.and_eq_true, decide_eq_true_eq, decide_eq_true_eq] at hcode
      obtain ⟨rfl, hhead⟩ := hcode
      obtain ⟨rest, hrest⟩ := List.head?_eq_some_iff.mp hhead
      have hcs : cs = code ++ ':' :: rest := by
        conv_lhs => rw [eq_takeWhile_append_drop (fun d => d != ':' && !Text.isBlank d) cs]
        rw [hrest]
      have hdrop : cs.drop (code.length + 1) = rest := by
        rw [← List.drop_drop, hrest, List.drop_one, List.tail_cons]
      have hnone : ofCode? (String.ofList code) = none := by
        refine h code ⟨[], rest, by simp [hcs]⟩ fun d hd => ?_
        simpa using List.all_eq_true.mp List.all_takeWhile d hd
      have hsuffix : rest <:+ ':' :: cs := ⟨':' :: code ++ [':'], by simp [hcs]⟩
      rw [hdrop] at ih ⊢
      rw [hnone, Option.getD_none, ih (h.of_infix hsuffix.isInfix), hcs]
      simp
  | case3 c cs code hcode ih =>
      rw [ih (h.of_infix (List.suffix_cons c cs).isInfix)]

end Pictograph

namespace Markup

/-- Nowhere in a text does a tag begin, and no backslash stands before a bracket. -/
def IsUnmarked (cs : List Char) : Prop :=
  ∀ rest, rest <:+ cs → tag? rest = none ∧ ¬ ['\\', '['] <+: rest

/-- A text that stands for itself as markup. -/
structure IsPlain (s : String) : Prop where
  unmarked : IsUnmarked s.toList
  pictureless : Pictograph.IsPictureless s.toList
  shown : ∀ c ∈ s.toList, isDroppedControl c = false

theorem isUnmarked_nil : IsUnmarked [] := fun rest h => by
  rw [List.suffix_nil.mp h]
  exact ⟨rfl, by simp⟩

/-- A text is unmarked exactly if nothing marked begins it and the rest is unmarked. -/
theorem isUnmarked_cons_iff {c : Char} {cs : List Char} :
    IsUnmarked (c :: cs) ↔ (tag? (c :: cs) = none ∧ ¬ ['\\', '['] <+: c :: cs) ∧ IsUnmarked cs := by
  constructor
  · intro h
    exact ⟨h _ List.suffix_rfl, fun rest hrest => h rest (hrest.trans (List.suffix_cons c cs))⟩
  · rintro ⟨hself, hrest⟩ rest h
    rcases List.suffix_cons_iff.mp h with rfl | h
    · exact hself
    · exact hrest rest h

/-- A tag begins with a bracket. -/
theorem tag?_of_ne {c : Char} (h : c ≠ '[') (cs : List Char) : tag? (c :: cs) = none := by
  unfold tag?
  split
  next heq => exact absurd (List.cons.inj heq).1 h
  next => rfl

/-- Only the last of several backslashes can stand before a bracket. -/
theorem isUnmarked_backslashes_iff {n : Nat} {cs : List Char} :
    IsUnmarked (List.replicate n '\\' ++ cs) ↔ (0 < n → cs.head? ≠ some '[') ∧ IsUnmarked cs := by
  induction n with
  | zero => simp
  | succ n ih =>
      rw [List.replicate_succ, List.cons_append, isUnmarked_cons_iff, ih,
        and_iff_right (tag?_of_ne (by decide) _)]
      cases n with
      | zero => cases cs <;> simp [eq_comm]
      | succ n => simp [List.replicate_succ]

/-! ### What markup takes away -/

/-- The characters of a piece, before pictographs are drawn. -/
def Piece.raw : Piece → List Char
  | .text cs | .shownTag cs => cs
  | .tag _ _ => []

theorem flatMap_raw_joined (ps qs : List Piece) :
    (joined ps qs).flatMap Piece.raw = ps.flatMap Piece.raw ++ qs.flatMap Piece.raw := by
  unfold joined
  split <;> simp [Piece.raw]

/-- A tag stands between brackets. -/
theorem eq_of_tag? {cs inside : List Char} (h : tag? cs = some inside) :
    ∃ rest, cs = '[' :: (inside ++ ']' :: rest) := by
  unfold tag? at h
  split at h
  next c ds =>
    dsimp only at h
    split at h
    next rest hdrop =>
      split at h <;> cases h
      refine ⟨rest, ?_⟩
      rw [← hdrop, List.cons_append, ← eq_takeWhile_append_drop]
    next => cases h
  next => cases h

/-- How the front of a text is read: as it is, or with something taken away because it is marked. -/
inductive ReadsFront (taken rest : List Char) : List Piece → Prop
  | whole (unmarked : IsUnmarked (taken ++ rest) ↔ IsUnmarked rest) :
      ReadsFront taken rest [.text taken]
  | less {ps : List Piece} (sublist : (ps.flatMap Piece.raw).Sublist taken)
      (shorter : (ps.flatMap Piece.raw).length < taken.length)
      (marked : ¬ IsUnmarked (taken ++ rest)) : ReadsFront taken rest ps

/-- The front of a text is read in one of these ways, and is not empty. -/
theorem exists_readsFront (offset : Nat) (c : Char) (cs : List Char) :
    ∃ taken rest, c :: cs = taken ++ rest ∧ taken ≠ [] ∧ (front offset c cs).2 = taken.length ∧
      ReadsFront taken rest (front offset c cs).1 := by
  obtain ⟨n, rest, hsplit, hrest, hfirst⟩ : ∃ n rest, c :: cs = List.replicate n '\\' ++ rest ∧
      (c :: cs).drop n = rest ∧ ((c :: cs).takeWhile (· == '\\')).length = n := by
    refine ⟨_, _, ?_, rfl, rfl⟩
    conv_lhs => rw [eq_takeWhile_append_drop (· == '\\') (c :: cs)]
    congr 1
    exact List.eq_replicate_of_mem fun d hd => by
      simpa using List.all_eq_true.mp List.all_takeWhile d hd
  unfold front
  simp only [hfirst, hrest]
  have hkept : (List.replicate (n / 2) '\\').Sublist (List.replicate n '\\') :=
    (List.replicate_sublist_replicate '\\').mpr (Nat.div_le_self n 2)
  cases htag : tag? rest with
  | some inside =>
      obtain ⟨after, rfl⟩ := eq_of_tag? htag
      dsimp only
      refine ⟨List.replicate n '\\' ++ '[' :: (inside ++ [']']), after, by simp [hsplit], by simp,
        by simp; omega, .less ?_ ?_ ?_⟩
      · split
        · simpa [Piece.raw] using hkept
        · simpa [Piece.raw] using hkept.trans (List.sublist_append_left _ _)
      · split
        · simp [Piece.raw]
          omega
        · simp [Piece.raw]
          omega
      · intro h
        have hmarked : IsUnmarked (List.replicate n '\\' ++ '[' :: (inside ++ ']' :: after)) := by
          simpa using h
        have hnone := ((isUnmarked_backslashes_iff.mp hmarked).2 _ List.suffix_rfl).1
        rw [htag] at hnone
        cases hnone
  | none =>
      dsimp only
      split
      next hzero =>
        subst hzero
        refine ⟨[c], cs, rfl, by simp, rfl, .whole ?_⟩
        have hc : c ≠ '\\' := fun h => by simp [h] at hfirst
        rw [List.singleton_append, isUnmarked_cons_iff, and_iff_right]
        rw [List.drop_zero] at hrest
        refine ⟨hrest ▸ htag, fun h => hc ?_⟩
        exact (List.cons_prefix_cons.mp h).1.symm
      next hpos =>
        split
        next hhead =>
          obtain ⟨after, rfl⟩ := List.head?_eq_some_iff.mp hhead
          refine ⟨List.replicate n '\\' ++ ['['], after, by simp [hsplit], by simp, by simp,
            .less ?_ ?_ ?_⟩
          · simp [Piece.raw]
          · simp [Piece.raw]
            omega
          · intro h
            have hmarked : IsUnmarked (List.replicate n '\\' ++ '[' :: after) := by simpa using h
            exact (isUnmarked_backslashes_iff.mp hmarked).1 (Nat.pos_of_ne_zero hpos) rfl
        next hhead =>
          refine ⟨List.replicate n '\\', rest, hsplit, by simpa using hpos, by simp, .whole ?_⟩
          rw [isUnmarked_backslashes_iff, and_iff_right fun _ => hhead]

/-- A text is read from its front on. -/
theorem pieces_cons (offset : Nat) (c : Char) (cs : List Char) :
    ∃ ps taken rest, c :: cs = taken ++ rest ∧ taken ≠ [] ∧ ReadsFront taken rest ps ∧
      pieces offset (c :: cs) = joined ps (pieces (offset + taken.length) rest) := by
  obtain ⟨taken, rest, hsplit, hne, hlength, hreads⟩ := exists_readsFront offset c cs
  refine ⟨_, taken, rest, hsplit, hne, hreads, ?_⟩
  have hdrop : cs.drop (taken.length - 1) = rest := by
    obtain ⟨d, ds, rfl⟩ := List.exists_cons_of_ne_nil hne
    obtain ⟨-, rfl⟩ := List.cons.inj hsplit
    simp
  rw [pieces]
  simp only [hlength, hdrop]

/-- **What markup takes away**: some characters, unless the text is unmarked. -/
theorem raw_sublist (offset : Nat) (cs : List Char) :
    ((pieces offset cs).flatMap Piece.raw).Sublist cs ∧
      (cs.length ≤ ((pieces offset cs).flatMap Piece.raw).length → IsUnmarked cs) ∧
      (IsUnmarked cs → cs ≠ [] → pieces offset cs = [.text cs]) := by
  induction hn : cs.length using Nat.strong_induction_on generalizing offset cs with
  | h n ih =>
      cases cs with
      | nil => exact ⟨by simp [pieces], fun _ => isUnmarked_nil, fun _ h => absurd rfl h⟩
      | cons c cs =>
          obtain ⟨ps, taken, rest, hsplit, hne, hreads, hpieces⟩ := pieces_cons offset c cs
          rw [hsplit] at hn ⊢
          rw [hsplit] at hpieces
          have hpos : 0 < taken.length := List.length_pos_iff.mpr hne
          obtain ⟨hsub, hlength, hwhole⟩ := ih rest.length (by simp at hn; omega)
            (offset + taken.length) rest rfl
          subst hn
          rw [hpieces, flatMap_raw_joined]
          cases hreads with
          | whole unmarked =>
              rw [List.flatMap_singleton, Piece.raw]
              refine ⟨hsub.append_left taken, fun hle => ?_, fun h _ => ?_⟩
              · rw [List.length_append, List.length_append] at hle
                exact unmarked.mpr (hlength (Nat.add_le_add_iff_left.mp hle))
              · cases rest with
                | nil => simp [pieces, joined]
                | cons d ds =>
                    rw [hwhole (unmarked.mp h) (List.cons_ne_nil d ds)]
                    rfl
          | less sublist shorter marked =>
              refine ⟨sublist.append hsub, fun hle => ?_, fun h => absurd h marked⟩
              have := hsub.length_le
              simp only [List.length_append] at hle
              omega

/-! ### Texts that stand for themselves -/

/-- What is shown of a text is what its pieces show, if every closing tag closes something. -/
theorem plain_ok_iff {s : String} {cs : List Char} : plain s = .ok (String.ofList cs) ↔
    checkTags [] (pieces 0 s.toList) = .ok () ∧
      (pieces 0 s.toList).flatMap Piece.shown = cs := by
  unfold plain
  show (checkTags [] _).bind _ = _ ↔ _
  rw [Except.bind_eq_ok_iff]
  constructor
  · rintro ⟨⟨⟩, hchecked, hcs⟩
    exact ⟨hchecked, String.ofList_injective (Except.ok.inj hcs)⟩
  · rintro ⟨hchecked, rfl⟩
    exact ⟨(), hchecked, rfl⟩

/-- A text without tags is shown but for the pictographs in it. -/
theorem plain_of_isUnmarked {s : String} (h : IsUnmarked s.toList) :
    plain s = .ok (String.ofList (Pictograph.drawn s.toList)) := by
  rw [plain_ok_iff]
  cases hs : s.toList with
  | nil => simp [pieces, checkTags, Pictograph.drawn]
  | cons c cs =>
      rw [(raw_sublist 0 (c :: cs)).2.2 (hs ▸ h) (List.cons_ne_nil c cs)]
      simp [checkTags, Piece.shown]

/-- Without colons there are no pictographs. -/
theorem flatMap_shown_of_not_mem {cs : List Char} (h : ':' ∉ cs) (offset : Nat) :
    (pieces offset cs).flatMap Piece.shown = (pieces offset cs).flatMap Piece.raw := by
  refine List.flatMap_congr fun p hp => ?_
  have hraw : ':' ∉ p.raw := fun hmem =>
    h ((raw_sublist offset cs).1.subset (List.mem_flatMap.mpr ⟨p, hp, hmem⟩))
  cases p with
  | text ds => exact Pictograph.drawn_of_not_mem hraw
  | shownTag ds => exact Pictograph.drawn_of_not_mem hraw
  | tag => rfl

/-! ### Texts without markup -/

/-- A text without opening brackets is unmarked. -/
theorem isUnmarked_of_not_mem {cs : List Char} (h : '[' ∉ cs) : IsUnmarked cs := by
  intro rest hrest
  have hmem : '[' ∉ rest := fun hmem => h (hrest.subset hmem)
  refine ⟨?_, fun hescaped => hmem (hescaped.subset (by simp))⟩
  cases rest with
  | nil => rfl
  | cons c rest => exact tag?_of_ne (fun hc => hmem (hc ▸ List.mem_cons_self)) rest

/-- Brackets with nothing between them are no tag. -/
theorem isUnmarked_append_brackets {cs : List Char} (h : ∀ c ∈ cs, c ≠ '[' ∧ c ≠ '\\') :
    IsUnmarked (cs ++ ['[', ']']) := by
  induction cs with
  | nil =>
      rw [List.nil_append, isUnmarked_cons_iff]
      exact ⟨⟨rfl, by decide⟩, isUnmarked_of_not_mem (by decide)⟩
  | cons c cs ih =>
      obtain ⟨⟨hopening, hescape⟩, hcs⟩ := List.forall_mem_cons.mp h
      rw [List.cons_append, isUnmarked_cons_iff]
      exact ⟨⟨tag?_of_ne hopening _, fun hbegins =>
        hescape (List.cons_prefix_cons.mp hbegins).1.symm⟩, ih hcs⟩

/-- A character that begins no tag and no name of a pictograph, and is not left out. -/
def isHarmless (c : Char) : Bool := c != '[' && c != ':' && !isDroppedControl c

/-- A text of harmless characters. -/
def IsHarmless (s : String) : Prop := ∀ c ∈ s.toList, isHarmless c = true

-- Over the characters of the text, not over all characters that there are.
instance (s : String) : Decidable (IsHarmless s) :=
  List.decidableBAll (fun c => isHarmless c = true) s.toList

theorem isHarmless_iff {c : Char} :
    isHarmless c = true ↔ (c ≠ '[' ∧ c ≠ ':') ∧ isDroppedControl c = false := by
  simp [isHarmless]

theorem isHarmless_ofList_iff {cs : List Char} :
    IsHarmless (String.ofList cs) ↔ ∀ c ∈ cs, isHarmless c = true := by
  rw [IsHarmless, String.toList_ofList]

theorem isHarmless_append_iff {s t : String} :
    IsHarmless (s ++ t) ↔ IsHarmless s ∧ IsHarmless t := by
  simp only [IsHarmless, String.toList_append, List.forall_mem_append]

/-- Harmless texts with something harmless between them are harmless. -/
theorem isHarmless_intercalate {sep : String} {texts : List String} (hsep : IsHarmless sep)
    (h : ∀ t ∈ texts, IsHarmless t) : IsHarmless (sep.intercalate texts) := by
  induction texts with
  | nil => exact fun c hc => absurd hc List.not_mem_nil
  | cons t texts ih =>
      obtain ⟨ht, htexts⟩ := List.forall_mem_cons.mp h
      cases texts with
      | nil => rwa [String.intercalate_singleton]
      | cons u texts =>
          rw [String.intercalate_cons_cons]
          exact isHarmless_append_iff.mpr ⟨isHarmless_append_iff.mpr ⟨ht, hsep⟩, ih htexts⟩

variable {s : String}

theorem isPlain_of_isHarmless (h : IsHarmless s) : IsPlain s where
  unmarked := isUnmarked_of_not_mem fun hmem => (isHarmless_iff.mp (h _ hmem)).1.1 rfl
  pictureless := Pictograph.isPictureless_of_not_mem fun hmem =>
    (isHarmless_iff.mp (h _ hmem)).1.2 rfl
  shown := fun c hc => (isHarmless_iff.mp (h c hc)).2

/-- A harmless text is plain with a pair of brackets behind it, if it has no backslash. -/
theorem isPlain_append_brackets (h : IsHarmless s) (hescape : '\\' ∉ s.toList) :
    IsPlain (s ++ "[]") where
  unmarked := by
    rw [String.toList_append]
    exact isUnmarked_append_brackets fun c hc =>
      ⟨(isHarmless_iff.mp (h c hc)).1.1, fun heq => hescape (heq ▸ hc)⟩
  pictureless := by
    refine Pictograph.isPictureless_of_not_mem fun hmem => ?_
    rw [String.toList_append] at hmem
    rcases List.mem_append.mp hmem with hmem | hmem
    · exact (isHarmless_iff.mp (h _ hmem)).1.2 rfl
    · exact absurd hmem (by decide)
  shown := by
    rw [String.toList_append]
    exact List.forall_mem_append.mpr ⟨fun c hc => (isHarmless_iff.mp (h c hc)).2,
      List.forall_mem_cons.mpr ⟨rfl, List.forall_mem_singleton.mpr rfl⟩⟩

end Markup

namespace Display.Grid

open Markup

variable {s : String}

/-- A cell shows what markup leaves, without the dropped controls. -/
theorem cell_ok_iff {cs : List Char} : cell s = .ok cs ↔
    ∃ ds, plain s = .ok (String.ofList ds) ∧ ds.filter (fun c => !isDroppedControl c) = cs := by
  unfold cell
  rw [Except.map_eq_ok_iff]
  constructor
  · rintro ⟨text, htext, hshown⟩
    exact ⟨text.toList, by rw [htext, String.ofList_toList], hshown⟩
  · rintro ⟨ds, hds, rfl⟩
    exact ⟨_, hds, by rw [shown, String.toList_ofList]⟩

theorem cell_of_isPlain (h : IsPlain s) : cell s = .ok s.toList := by
  refine cell_ok_iff.mpr ⟨_, plain_of_isUnmarked h.unmarked, ?_⟩
  rw [Pictograph.drawn_of_isPictureless h.pictureless, List.filter_eq_self]
  exact fun c hc => by rw [h.shown c hc, Bool.not_false]

/-- **What a cell shows** is its text just if that is plain, as long as there is no colon in it. -/
theorem cell_eq_iff (h : ':' ∉ s.toList) : cell s = .ok s.toList ↔ IsPlain s := by
  refine ⟨fun hcell => ?_, cell_of_isPlain⟩
  obtain ⟨ds, hplain, hfilter⟩ := cell_ok_iff.mp hcell
  obtain ⟨-, rfl⟩ := plain_ok_iff.mp hplain
  rw [flatMap_shown_of_not_mem h] at hfilter
  obtain ⟨hsub, hunmarked, -⟩ := raw_sublist 0 s.toList
  have hlength : s.toList.length ≤ ((pieces 0 s.toList).flatMap Piece.raw).length := by
    conv_lhs => rw [← hfilter]
    exact List.length_filter_le _ _
  rw [hsub.eq_of_length_le hlength, List.filter_eq_self] at hfilter
  exact ⟨hunmarked hlength, Pictograph.isPictureless_of_not_mem h,
    fun c hc => by simpa using hfilter c hc⟩

end Display.Grid

end Schemata
