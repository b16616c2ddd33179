import Schemata.Proofs.Shape.Recognition

/-!
# Proofs — shapes — shapes inside shapes

The shape of an entry is read together with the block around it, and is a block of its own all the
same.  Its text is a part of the text around it, in braces that match (`IsBraced`); the place that is
kept with it is the place of that part; and reading the part by itself, from that place, gives the
shape again, with the texts and the places of all shapes inside it.

Reading is local in two steps.  A part of a text is cut into the pieces that it has in the text
around it, counted from its own beginning (`pieces_part`).  An object is read in the same way from
its pieces, whatever comes after them, wherever the counting begins (`readEntries_part`).

* `Shape.standsIn_of_contains` — so it is for the shapes at any depth.
-/

namespace Schemata

/-! ### Matching braces -/

/-- The text begins with a brace and ends with the one that closes it: as many are opened as are
closed, and between the first one and the last more are open than are closed. -/
structure IsBraced (cs : List Char) : Prop where
  opens : cs.head? = some '{'
  closes : cs.getLast? = some '}'
  balanced : cs.count '{' = cs.count '}'
  inside : ∀ before after, cs = before ++ after → before ≠ [] → after ≠ [] →
    before.count '}' < before.count '{'

namespace Lexeme

/-- What closes `depth` open braces is a text that ends in a brace, closes that many braces more than
it opens, and fewer before its end. -/
theorem blockTail_closes {depth : Nat} {cs tail : List Char} (h : blockTail depth cs = some tail)
    (hdepth : 0 < depth) :
    tail.getLast? = some '}' ∧ tail.count '}' = tail.count '{' + depth ∧
      ∀ before after, tail = before ++ after → after ≠ [] →
        before.count '}' < before.count '{' + depth := by
  -- a prefix is empty, or has the first character before a prefix of the rest
  have hprefix : ∀ {c : Char} {t : List Char} {n : Nat},
      (∀ before after, t = before ++ after → after ≠ [] →
        (c :: before).count '}' < (c :: before).count '{' + n) → 0 < n →
      ∀ before after, c :: t = before ++ after → after ≠ [] →
        before.count '}' < before.count '{' + n := by
    intro c t n ht hn before after heq hafter
    cases before with
    | nil => simpa using hn
    | cons d before =>
        obtain ⟨rfl, rfl⟩ := List.cons.inj heq
        exact ht before after rfl hafter
  fun_induction blockTail depth cs generalizing tail with
  | case1 => cases h
  | case2 depth cs ih =>
      obtain ⟨t, ht, rfl⟩ := Option.map_eq_some_iff.mp h
      obtain ⟨hlast, hcount, hinside⟩ := ih ht (Nat.succ_pos depth)
      refine ⟨by simp [List.getLast?_cons, hlast], by simp [hcount]; omega, hprefix ?_ hdepth⟩
      intro before after heq hafter
      have := hinside before after heq hafter
      simp
      omega
  | case3 depth cs hnot hone =>
      cases h
      obtain rfl : depth = 1 := by omega
      refine ⟨rfl, rfl, hprefix ?_ hdepth⟩
      intro before after heq hafter
      obtain ⟨-, rfl⟩ := List.append_eq_nil_iff.mp heq.symm
      exact absurd rfl hafter
  | case4 depth cs hnot hmore ih =>
      obtain ⟨t, ht, rfl⟩ := Option.map_eq_some_iff.mp h
      obtain ⟨hlast, hcount, hinside⟩ := ih ht (by omega)
      refine ⟨by simp [List.getLast?_cons, hlast], by simp [hcount]; omega, hprefix ?_ hdepth⟩
      intro before after heq hafter
      have := hinside before after heq hafter
      simp
      omega
  | case5 depth c cs hopen hclose ih =>
      obtain ⟨t, ht, rfl⟩ := Option.map_eq_some_iff.mp h
      obtain ⟨hlast, hcount, hinside⟩ := ih ht hdepth
      refine ⟨by simp [List.getLast?_cons, hlast], by simp [hcount, hopen, hclose], hprefix ?_ hdepth⟩
      intro before after heq hafter
      have := hinside before after heq hafter
      simpa [hopen, hclose] using this

/-- A raw block is in braces that match. -/
theorem isBraced_of_blockTail {cs tail : List Char} (h : blockTail 1 cs = some tail) :
    IsBraced ('{' :: tail) := by
  obtain ⟨hlast, hcount, hinside⟩ := blockTail_closes h Nat.one_pos
  refine ⟨rfl, by simp [List.getLast?_cons, hlast], by simp [hcount], ?_⟩
  intro before after heq hbefore hafter
  cases before with
  | nil => exact absurd rfl hbefore
  | cons c before =>
      obtain ⟨rfl, rfl⟩ := List.cons.inj heq
      have := hinside before after rfl hafter
      simp
      omega

end Lexeme

namespace Shape

open Text

variable {b : Block} {p : Piece} {ps qs : List Piece}

/-- Marks that are laid out one after the other are so in parts of the text. -/
theorem laidOut_append {ms ns : List Mark} {cs : List Char} (h : LaidOut (ms ++ ns) cs) :
    ∃ cs₁ cs₂, cs = cs₁ ++ cs₂ ∧ LaidOut ms cs₁ ∧ LaidOut ns cs₂ := by
  induction ms generalizing cs with
  | nil => exact ⟨[], cs, rfl, .nil (List.forall_mem_nil _), h⟩
  | cons m ms ih =>
      rw [List.cons_append] at h
      cases h with
      | @cons _ _ gap cs between apart rest =>
          obtain ⟨cs₁, cs₂, rfl, hms, hns⟩ := ih rest
          refine ⟨gap ++ (m.spelled ++ cs₁), cs₂, by simp only [List.append_assoc], ?_, hns⟩
          refine .cons between (fun c hc d hd => apart c hc d ?_) hms
          rw [List.head?_append, Option.mem_def.mp hd]
          rfl

/-- A text that writes an object, and that begins and ends with a brace, is in braces that match. -/
theorem isBraced_of_writes {raw : String} {es : List ShapeEntry} (h : Writes raw es)
    (hes : AreExpressible es) (hopen : raw.toList.head? = some '{')
    (hclose : raw.toList.getLast? = some '}') : IsBraced raw.toList := by
  obtain ⟨ms, hwrites, hlaid⟩ := h
  generalize raw.toList = text at hlaid hopen hclose ⊢
  unfold braced at hlaid
  cases hlaid with
  | @cons _ _ gap cs between _ rest =>
      -- a blank is no brace, so nothing stands before the first one
      obtain rfl : gap = [] := by
        cases gap with
        | nil => rfl
        | cons c gap =>
            obtain rfl : c = '{' := Option.some.inj hopen
            exact absurd (between '{' List.mem_cons_self) (by decide)
      obtain ⟨inner, closing, rfl, hinner, hclosing⟩ := laidOut_append rest
      cases hclosing with
      | @cons _ _ gap cs between _ ends =>
          cases ends with
          | nil ends =>
              -- and nothing after the last one
              obtain rfl : cs = [] := by
                rcases List.eq_nil_or_concat cs with rfl | ⟨cs, c, rfl⟩
                · rfl
                · have hlast : ('{' :: (inner ++ (gap ++ '}' :: cs)) ++ [c]).getLast? = some '}' :=
                    (congrArg List.getLast? (by simp [Mark.spelled])).trans hclose
                  rw [List.getLast?_concat] at hlast
                  obtain rfl : c = '}' := Option.some.inj hlast
                  exact absurd (ends '}' (by simp)) (by decide)
              have hdepth : depthAfter 1 ms = some 1 := by
                have hnil : depthAfter 1 (ms ++ []) = depthAfter 1 [] :=
                  depthAfter_append hwrites Nat.one_pos
                rwa [List.append_nil] at hnil
              have hgap : ∀ c ∈ gap, c ≠ '{' ∧ c ≠ '}' := fun c hc =>
                ⟨fun h => absurd (between c hc) (by rw [h]; decide),
                  fun h => absurd (between c hc) (by rw [h]; decide)⟩
              have htail : Lexeme.blockTail 1 (inner ++ (gap ++ ['}'])) =
                  some (inner ++ (gap ++ ['}'])) := by
                rw [blockTail_of_laidOut hinner (fits_of_writesEntries hwrites hes) hdepth,
                  blockTail_append hgap]
                rfl
              exact Lexeme.isBraced_of_blockTail htail

/-! ### Parts of a text -/

/-- The same piece, so many characters further on. -/
def Piece.shift (k : Nat) : Piece → Piece
  | .word text offset => .word text (offset + k)
  | .sign c offset => .sign c (offset + k)

namespace Piece

variable {k : Nat}

@[simp] theorem mark_shift : (p.shift k).mark = p.mark := by cases p <;> rfl

@[simp] theorem offset_shift : (p.shift k).offset = p.offset + k := by cases p <;> rfl

theorem map_mark_shift : (ps.map (shift k)).map mark = ps.map mark := by
  simp [Function.comp_def]

theorem eq_sign_of_mark {c : Char} (h : p.mark = .sign c) : p = .sign c p.offset := by
  cases p with
  | word => cases h
  | sign => cases h; rfl

end Piece

/-- Where the counting begins makes no other difference. -/
theorem pieces_shift {offset k : Nat} {cs : List Char} (h : pieces (offset + k) cs = .ok ps) :
    ∃ qs, pieces offset cs = .ok qs ∧ qs.map (Piece.shift k) = ps := by
  generalize hm : offset + k = m at h
  fun_induction pieces m cs generalizing offset ps with
  | case1 =>
      cases h
      exact ⟨[], by unfold pieces; rfl, rfl⟩
  | case2 m c cs hblank ih =>
      rw [pieces_cons, if_pos hblank]
      exact ih (by omega) h
  | case3 m c cs hblank hstart tail =>
      rename_i ih
      obtain ⟨rest, hrest, rfl⟩ := Except.map_eq_ok_iff.mp h
      obtain ⟨qs, hqs, rfl⟩ := @ih rest (offset + tail.length + 1) (by omega) hrest
      rw [pieces_cons, if_neg hblank, if_pos hstart, hqs, ← hm]
      exact ⟨_, rfl, rfl⟩
  | case4 m c cs hblank hstart hsign ih =>
      obtain ⟨rest, hrest, rfl⟩ := Except.map_eq_ok_iff.mp h
      obtain ⟨qs, hqs, rfl⟩ := @ih rest (offset + 1) (by omega) hrest
      rw [pieces_cons, if_neg hblank, if_neg hstart, if_pos hsign, hqs, ← hm]
      exact ⟨_, rfl, rfl⟩
  | case5 => cases h

/-- The pieces from one of them on are those of the text from there on. -/
theorem pieces_drop {offset : Nat} {cs : List Char} (h : pieces offset cs = .ok (ps ++ p :: qs)) :
    offset ≤ p.offset ∧ pieces p.offset (cs.drop (p.offset - offset)) = .ok (p :: qs) := by
  fun_induction pieces offset cs generalizing ps with
  | case1 =>
      cases ps <;> cases h
  | case2 offset c cs hblank ih =>
      obtain ⟨hle, hpieces⟩ := ih h
      refine ⟨by omega, ?_⟩
      rw [show p.offset - offset = p.offset - (offset + 1) + 1 by omega, List.drop_succ_cons]
      exact hpieces
  | case3 offset c cs hblank hstart tail =>
      rename_i ih
      obtain ⟨rest, hrest, heq⟩ := Except.map_eq_ok_iff.mp h
      cases ps with
      | nil =>
          obtain ⟨rfl, rfl⟩ := List.cons.inj heq
          refine ⟨Nat.le_refl _, ?_⟩
          show pieces offset ((c :: cs).drop (offset - offset)) = _
          rw [Nat.sub_self, List.drop_zero, pieces_cons, if_neg hblank, if_pos hstart, hrest]
          rfl
      | cons p' ps =>
          obtain ⟨rfl, rfl⟩ := List.cons.inj heq
          obtain ⟨hle, hpieces⟩ := ih hrest
          refine ⟨by omega, ?_⟩
          rw [show p.offset - offset = p.offset - (offset + tail.length + 1) + tail.length + 1 by
            omega, List.drop_succ_cons, Nat.add_comm _ tail.length, ← List.drop_drop]
          exact hpieces
  | case4 offset c cs hblank hstart hsign ih =>
      obtain ⟨rest, hrest, heq⟩ := Except.map_eq_ok_iff.mp h
      cases ps with
      | nil =>
          obtain ⟨rfl, rfl⟩ := List.cons.inj heq
          refine ⟨Nat.le_refl _, ?_⟩
          show pieces offset ((c :: cs).drop (offset - offset)) = _
          rw [Nat.sub_self, List.drop_zero, pieces_cons, if_neg hblank, if_neg hstart, if_pos hsign,
            hrest]
          rfl
      | cons p' ps =>
          obtain ⟨rfl, rfl⟩ := List.cons.inj heq
          obtain ⟨hle, hpieces⟩ := ih hrest
          refine ⟨by omega, ?_⟩
          rw [show p.offset - offset = p.offset - (offset + 1) + 1 by omega, List.drop_succ_cons]
          exact hpieces
  | case5 => cases h

/-- A run that is over before a text is cut off is the same run. -/
theorem takeWhile_take {test : Char → Bool} {cs : List Char} {n : Nat}
    (h : (cs.takeWhile test).length ≤ n) : (cs.take n).takeWhile test = cs.takeWhile test := by
  have hsplit : cs.take n = cs.takeWhile test ++ (cs.dropWhile test).take
      (n - (cs.takeWhile test).length) := by
    conv => lhs; rw [← List.takeWhile_append_dropWhile (p := test) (l := cs), List.take_append,
      List.take_of_length_le h]
  rw [hsplit]
  refine (span_append (fun c hc => List.all_eq_true.mp List.all_takeWhile c hc) fun c hc => ?_).1
  have hhead := List.head?_dropWhile_not test cs
  cases hrest : cs.dropWhile test with
  | nil => rw [hrest] at hc; simp at hc
  | cons d rest =>
      rw [hrest] at hc hhead
      rw [List.head?_take] at hc
      split at hc
      next => cases hc
      next =>
          cases hc
          simpa using hhead

/-- The pieces up to a sign are those of the text up to there. -/
theorem pieces_take {offset k : Nat} {d : Char} {cs : List Char}
    (h : pieces offset cs = .ok (ps ++ Piece.sign d k :: qs)) :
    pieces offset (cs.take (k + 1 - offset)) = .ok (ps ++ [Piece.sign d k]) := by
  have hle : ∀ {n : Nat} {cs : List Char} {ps : List Piece},
      pieces n cs = .ok (ps ++ .sign d k :: qs) → n ≤ k := fun h => (pieces_drop h).1
  fun_induction pieces offset cs generalizing ps with
  | case1 => cases ps <;> cases h
  | case2 offset c cs hblank ih =>
      have := hle h
      rw [show k + 1 - offset = k + 1 - (offset + 1) + 1 by omega, List.take_succ_cons, pieces_cons,
        if_pos hblank, ih h]
  | case3 offset c cs hblank hstart tail =>
      rename_i ih
      obtain ⟨rest, hrest, heq⟩ := Except.map_eq_ok_iff.mp h
      cases ps with
      | nil => cases (List.cons.inj heq).1
      | cons p' ps =>
          obtain ⟨rfl, rfl⟩ := List.cons.inj heq
          have := hle hrest
          have htake : (cs.take (k - offset)).takeWhile isWordPart = tail :=
            takeWhile_take (by show tail.length ≤ _; omega)
          rw [show k + 1 - offset = k - offset + 1 by omega, List.take_succ_cons, pieces_cons,
            if_neg hblank, if_pos hstart, htake, List.drop_take,
            show k - offset - tail.length = k + 1 - (offset + tail.length + 1) by omega, ih hrest]
          rfl
  | case4 offset c cs hblank hstart hsign ih =>
      obtain ⟨rest, hrest, heq⟩ := Except.map_eq_ok_iff.mp h
      cases ps with
      | nil =>
          obtain ⟨heq, rfl⟩ := List.cons.inj heq
          cases heq
          rw [Nat.add_sub_cancel_left, List.take_succ_cons, List.take_zero, pieces_cons,
            if_neg hblank, if_neg hstart, if_pos hsign]
          unfold pieces
          rfl
      | cons p' ps =>
          obtain ⟨rfl, rfl⟩ := List.cons.inj heq
          have := hle hrest
          rw [show k + 1 - offset = k + 1 - (offset + 1) + 1 by omega, List.take_succ_cons,
            pieces_cons, if_neg hblank, if_neg hstart, if_pos hsign, ih hrest]
          rfl
  | case5 => cases h

/-- **A part of a text**, from a sign up to a later one, is cut into the pieces that it has in the
text, counted from its own beginning. -/
theorem pieces_part {cs : List Char} {c d : Char} {first last : Nat} {us : List Piece}
    (h : pieces 0 cs = .ok (us ++ .sign c first :: (ps ++ .sign d last :: qs))) :
    ∃ ps', pieces 0 ((cs.take (last + 1)).drop first) = .ok ps' ∧
      ps'.map (Piece.shift first) = .sign c first :: (ps ++ [Piece.sign d last]) := by
  rw [← List.cons_append, ← List.append_assoc] at h
  have htake := pieces_take h
  rw [List.append_assoc, List.cons_append] at htake
  have hdrop : pieces (0 + first) ((cs.take (last + 1)).drop first) =
      .ok (.sign c first :: (ps ++ [Piece.sign d last])) := by
    rw [Nat.zero_add]
    exact (pieces_drop htake).2
  exact pieces_shift hdrop

/-- A sign is the character at its offset. -/
theorem getElem?_of_pieces {offset k : Nat} {c : Char} {cs : List Char}
    (h : pieces offset cs = .ok (ps ++ .sign c k :: qs)) : cs[k - offset]? = some c := by
  obtain ⟨-, hdrop⟩ := pieces_drop h
  rw [Piece.offset] at hdrop
  rw [← List.head?_drop]
  generalize cs.drop (k - offset) = ds at hdrop
  cases ds with
  | nil => unfold pieces at hdrop; cases hdrop
  | cons d ds =>
      rw [pieces_cons] at hdrop
      split at hdrop
      next =>
          have hlater : pieces (k + 1) ds = .ok ([] ++ .sign c k :: qs) := hdrop
          exact absurd (pieces_drop hlater).1 (Nat.not_succ_le_self k)
      next =>
          split at hdrop
          next =>
              obtain ⟨rest, -, heq⟩ := Except.map_eq_ok_iff.mp hdrop
              cases (List.cons.inj heq).1
          next =>
              split at hdrop
              next =>
                  obtain ⟨rest, -, heq⟩ := Except.map_eq_ok_iff.mp hdrop
                  cases (List.cons.inj heq).1
                  rfl
              next => cases hdrop

/-- Such a part begins and ends with the signs, and the text goes on around it. -/
theorem ends_part {cs : List Char} {c d : Char} {first last : Nat} {us : List Piece}
    (h : pieces 0 cs = .ok (us ++ .sign c first :: (ps ++ .sign d last :: qs))) :
    ((cs.take (last + 1)).drop first).head? = some c ∧
      ((cs.take (last + 1)).drop first).getLast? = some d ∧
      cs.take first ++ ((cs.take (last + 1)).drop first ++ cs.drop (last + 1)) = cs := by
  have hrest : pieces first (cs.drop first) = .ok ((.sign c first :: ps) ++ .sign d last :: qs) :=
    (pieces_drop h).2
  have hle : first ≤ last := (pieces_drop hrest).1
  have hsplit : pieces 0 cs = .ok ((us ++ .sign c first :: ps) ++ .sign d last :: qs) := by
    rw [List.append_assoc]
    exact h
  have hfirst : cs[first]? = some c := getElem?_of_pieces h
  have hlast : cs[last]? = some d := getElem?_of_pieces hsplit
  obtain ⟨hlength, -⟩ := List.getElem?_eq_some_iff.mp hlast
  refine ⟨?_, ?_, ?_⟩
  · rw [List.head?_drop, List.getElem?_take_of_lt (Nat.lt_succ_of_le hle), hfirst]
  · rw [List.getLast?_drop, List.length_take, if_neg (by omega), List.getLast?_take,
      if_neg (Nat.succ_ne_zero last), Nat.add_sub_cancel, hlast, Option.some_or]
  · have htake : cs.take first = (cs.take (last + 1)).take first := by
      rw [List.take_take, Nat.min_eq_left (Nat.le_succ_of_le hle)]
    rw [← List.append_assoc, htake, List.take_append_drop, List.take_append_drop]

/-! ### Parts of a block -/

/-- The part of a block from one offset up to another, as a block of its own. -/
def Block.part (b : Block) (first stop : Nat) : Block :=
  ⟨(b.text.take stop).drop first, b.place first⟩

/-- A place in a part of a block is one in the block. -/
theorem place_part {first stop n : Nat} (h : n + first ≤ stop) :
    (b.part first stop).place n = b.place (n + first) := by
  have htake : b.text.take (n + first) =
      b.text.take first ++ ((b.text.take stop).drop first).take n := by
    rw [List.take_drop, List.take_take, Nat.min_eq_left (by omega), Nat.add_comm n]
    conv => lhs; rw [← List.take_append_drop first (b.text.take (first + n)), List.take_take,
      Nat.min_eq_left (Nat.le_add_right _ _)]
  unfold Block.place
  rw [htake, Position.after_append]
  rfl

theorem slice_part {first stop m n : Nat} (h : n + first ≤ stop) :
    (b.part first stop).slice m n = b.slice (m + first) (n + first) := by
  unfold Block.slice Block.part
  rw [List.take_drop, List.take_take, Nat.min_eq_left (by omega), List.drop_drop,
    Nat.add_comm first n, Nat.add_comm first m]

theorem isSign_shift {k : Nat} {c : Char} : (p.shift k).isSign c = p.isSign c := by
  cases p <;> rfl

theorem openBrace?_eq_sign {first : Nat} (h : openBrace? ps = some (first, qs)) :
    ps = .sign '{' first :: qs := by
  obtain ⟨p, rfl, hp⟩ := openBrace?_eq_some h
  rw [Piece.eq_sign_of_mark hp] at h ⊢
  cases h
  rfl

section

variable {first stop : Nat}

/-- The type of an entry is read in the same way as a part of a block, if an object in it is. -/
theorem readType_part {type : EntryType ps} (h : entryType b ps = .ok type) (rest : List Piece)
    (hps : ps = qs.map (Piece.shift first) ++ type.rest) (hqs : ∀ q ∈ qs, q.offset + first < stop)
    (hinside : ∀ k ps₂, openBrace? ps = some (k, ps₂) → ∀ {qs : List Piece} {body : Body ps₂},
      readBody b [] ps₂ = .ok body → ∀ rest : List Piece,
        ps₂ = qs.map (Piece.shift first) ++ body.rest → (∀ q ∈ qs, q.offset + first < stop) →
          ∃ n, readEntries (b.part first stop) [] (qs ++ rest) = .ok (body.entries, n, rest) ∧
            n + first = body.stop ∧ body.stop ≤ stop) :
    readType (b.part first stop) (qs ++ rest) = .ok (type.typeName, type.shape, rest) := by
  unfold entryType at h
  split at h
  next k ps₂ hopen =>
      split at h
      next => cases h
      next body hbody =>
          cases h
          obtain rfl := openBrace?_eq_sign hopen
          obtain ⟨us, hus⟩ := readBody_suffix hbody
          have hmap : qs.map (Piece.shift first) = .sign '{' k :: us :=
            List.append_cancel_right (hps.symm.trans (congrArg (.sign '{' k :: ·) hus.symm))
          obtain ⟨q, qs, rfl, hq, htail⟩ := List.map_eq_cons_iff.mp hmap
          obtain ⟨hlt, hqs⟩ := List.forall_mem_cons.mp hqs
          obtain ⟨n, hread, hn, hstop⟩ := hinside k ps₂ hopen hbody rest
            (by rw [htail]; exact hus.symm) hqs
          cases q with
          | word => cases hq
          | sign c offset =>
              cases hq
              show (readEntries (b.part first stop) [] (qs ++ rest)).map _ = _
              rw [hread]
              dsimp only [Except.map]
              rw [slice_part (by omega), place_part (Nat.le_of_lt hlt), hn]
              rfl
  next hopen =>
      split at h
      next => cases h
      next w rest' hword =>
          cases h
          obtain ⟨offset, rfl⟩ := expectWord_ok hword
          have hps : [.word w.toList offset] ++ rest' = qs.map (Piece.shift first) ++ rest' := hps
          have hmap := (List.append_cancel_right hps).symm
          obtain ⟨q, rfl, hq⟩ := List.map_eq_singleton_iff.mp hmap
          cases q with
          | sign => cases hq
          | word text k =>
              cases hq
              show Except.ok (String.ofList w.toList, (none : Option Shape), rest) = _
              rw [String.ofList_toList]

/-- **An object is read from its pieces**, whatever comes after them, and in the same way as a part
of a block and as a part of a larger one. -/
theorem readEntries_part {seen : List String} {body : Body ps} (h : readBody b seen ps = .ok body)
    (rest : List Piece) (hps : ps = qs.map (Piece.shift first) ++ body.rest)
    (hqs : ∀ q ∈ qs, q.offset + first < stop) :
    ∃ n, readEntries (b.part first stop) seen (qs ++ rest) = .ok (body.entries, n, rest) ∧
      n + first = body.stop ∧ body.stop ≤ stop := by
  fun_induction readBody b seen ps generalizing qs rest with
  | case1 | case3 | case5 | case6 | case7 | case8 | case9 => cases h
  | case2 seen p ps hclose =>
      cases h
      have hps : [p] ++ ps = qs.map (Piece.shift first) ++ ps := hps
      have hmap := (List.append_cancel_right hps).symm
      obtain ⟨q, rfl, rfl⟩ := List.map_eq_singleton_iff.mp hmap
      have hlt := hqs q List.mem_cons_self
      rw [isSign_shift] at hclose
      refine ⟨q.offset + 1, readEntries_close hclose, ?_, ?_⟩ <;> dsimp only <;>
        rw [Piece.offset_shift] <;> omega
  | case4 seen p ps hclose hseparator body' hbody ih =>
      cases h
      obtain ⟨us, hus⟩ := readBody_suffix hbody
      have hmap : qs.map (Piece.shift first) = p :: us :=
        List.append_cancel_right (hps.symm.trans (congrArg (p :: ·) hus.symm))
      obtain ⟨q, qs, rfl, rfl, htail⟩ := List.map_eq_cons_iff.mp hmap
      obtain ⟨-, hqs⟩ := List.forall_mem_cons.mp hqs
      obtain ⟨n, hread, hn⟩ := ih hbody rest (by rw [htail]; exact hus.symm) hqs
      rw [isSign_shift, isSign_shift] at hseparator
      rw [isSign_shift] at hclose
      refine ⟨n, ?_, hn⟩
      rw [List.cons_append, readEntries_separator (by simpa using hclose) hseparator, hread]
  | case10 seen p ps hclose hseparator name isOptional ps₁ hhead h₁ read type htype isArray ps₃ hmark
      h₂ h₃ hseen entry body' hbody =>
      rename_i ihInside ihRest
      cases h
      obtain ⟨offset, os, colon, hword, hos, hcolon⟩ := entryHead_ok hhead
      obtain ⟨ts, hts⟩ := entryType_suffix htype
      obtain ⟨ks, hks, hmarks⟩ := arrayMark_ok hmark
      obtain ⟨inner, closing, hps₃, hclosing, hwrites⟩ := writesEntries_of_readBody hbody
      -- the pieces of the part are those of the key, the type, the array mark and the rest
      have hmap : qs.map (Piece.shift first) = .word name.toList offset :: (os ++ colon :: (ts ++
          (ks ++ (inner ++ [closing])))) := by
        have hall : qs.map (Piece.shift first) ++ body'.rest = .word name.toList offset ::
            (os ++ colon :: (ts ++ (ks ++ (inner ++ [closing])))) ++ body'.rest :=
          hps.symm.trans (hword.trans (by simp [← hts, hks, hps₃]))
        exact List.append_cancel_right hall
      obtain ⟨q, us, rfl, hq, hus⟩ := List.map_eq_cons_iff.mp hmap
      obtain ⟨os', vs, rfl, rfl, hvs⟩ := List.map_eq_append_iff.mp hus
      obtain ⟨colon', ws, rfl, rfl, hws⟩ := List.map_eq_cons_iff.mp hvs
      obtain ⟨ts', xs, rfl, rfl, hxs⟩ := List.map_eq_append_iff.mp hws
      obtain ⟨ks', ys, rfl, rfl, hys⟩ := List.map_eq_append_iff.mp hxs
      simp only [List.forall_mem_cons, List.forall_mem_append] at hqs
      obtain ⟨-, -, -, htype_lt, -, hrest_lt⟩ := hqs
      have htyped := readType_part htype (ks' ++ (ys ++ rest)) hts.symm htype_lt
        fun k ps₂ hopen => ihInside k ps₂ hopen
      obtain ⟨n, hread, hn⟩ :=
        ihRest hbody rest (by rw [hys, List.append_assoc]; exact hps₃) hrest_lt
      obtain ⟨inner', zs, rfl, rfl, hzs⟩ := List.map_eq_append_iff.mp hys
      obtain ⟨closing', rfl, rfl⟩ := List.map_eq_singleton_iff.mp hzs
      rw [Piece.map_mark_shift] at hos hmarks
      rw [Piece.mark_shift] at hcolon hclosing
      have hclosed : closing'.isSign '}' = true := by rw [isSign_of_mark hclosing]; rfl
      have hmarked := arrayMark_of_marks (b := b.part first stop) hmarks
        (@isSign_of_writesEntries closing' inner' rest _ _ hwrites Piece.map_mark_shift.symm hclosed)
      have hnew : name ∉ seen := fun hmem => hseen (List.contains_iff_mem.mpr hmem)
      refine ⟨n, ?_, hn⟩
      cases q with
      | sign => cases hq
      | word text k =>
          cases hq
          simp only [List.cons_append, List.append_assoc, List.nil_append] at htyped hread ⊢
          rw [readEntries_entry (entryHead_of_marks hos hcolon) htyped hmarked hnew, hread]
          rfl

end

/-! ### Shapes inside a shape -/

/-- An object is over at the brace that closes it. -/
theorem stop_of_readBody {seen : List String} {body : Body ps} (h : readBody b seen ps = .ok body) :
    ∃ inner last, ps = inner ++ .sign '}' last :: body.rest ∧ body.stop = last + 1 := by
  fun_induction readBody b seen ps with
  | case1 | case3 | case5 | case6 | case7 | case8 | case9 => cases h
  | case2 seen p ps hclose =>
      cases h
      refine ⟨[], p.offset, ?_, rfl⟩
      rw [List.nil_append, ← Piece.eq_sign_of_mark (mark_of_isSign hclose)]
  | case4 seen p ps hclose hseparator body' hbody ih =>
      cases h
      obtain ⟨inner, last, hps, hstop⟩ := ih hbody
      exact ⟨p :: inner, last, congrArg (p :: ·) hps, hstop⟩
  | case10 seen p ps hclose hseparator name isOptional ps₁ hhead h₁ read type htype isArray ps₃ hmark
      h₂ h₃ hseen entry body' hbody ihInside =>
      rename_i ihRest
      cases h
      obtain ⟨inner, last, hps₃, hstop⟩ := ihRest hbody
      obtain ⟨us, hus⟩ := ((arrayMark_suffix hmark).trans (entryType_suffix htype)).trans
        (entryHead_suffix hhead)
      refine ⟨us ++ inner, last, hus.symm.trans ?_, hstop⟩
      rw [List.append_assoc]
      exact congrArg _ hps₃

/-- A shape in an object was read as the object after one of its pieces. -/
theorem nested_of_readBody {seen : List String} {body : Body ps} (h : readBody b seen ps = .ok body)
    {e : ShapeEntry} (he : e ∈ body.entries) {u : Shape} (hu : e.shape = some u) :
    ∃ before first qs, ps = before ++ .sign '{' first :: qs ∧ ∃ inside : Body qs,
      readBody b [] qs = .ok inside ∧
        u = ⟨b.slice first inside.stop, e.isArray, inside.entries, b.place first⟩ := by
  fun_induction readBody b seen ps with
  | case1 | case3 | case5 | case6 | case7 | case8 | case9 => cases h
  | case2 => cases h; cases he
  | case4 seen p ps hclose hseparator body' hbody ih =>
      cases h
      obtain ⟨before, first, qs, hps, hinside⟩ := ih hbody he
      exact ⟨p :: before, first, qs, congrArg (p :: ·) hps, hinside⟩
  | case10 seen p ps hclose hseparator name isOptional ps₁ hhead h₁ read type htype isArray ps₃ hmark
      h₂ h₃ hseen entry body' hbody ihInside =>
      rename_i ihRest
      cases h
      obtain ⟨us, hus⟩ := entryHead_suffix hhead
      rcases List.mem_cons.mp he with rfl | he
      · -- the shape of this entry
        replace htype : entryType b ps₁ = .ok type := htype
        unfold entryType at htype
        split at htype
        next first qs hopen =>
            split at htype
            next => cases htype
            next inside hinside =>
                cases htype
                cases hu
                exact ⟨us, first, qs, by rw [← hus, openBrace?_eq_sign hopen], inside, hinside, rfl⟩
        next =>
            split at htype
            next => cases htype
            next =>
                cases htype
                cases hu
      · obtain ⟨before, first, qs, hps, hinside⟩ := ihRest hbody he
        obtain ⟨vs, hvs⟩ := (arrayMark_suffix hmark).trans (entryType_suffix htype)
        refine ⟨us ++ vs ++ before, first, qs, ?_, hinside⟩
        rw [← hus, ← hvs, hps, List.append_assoc, List.append_assoc]

/-- **An object in a block** is read from its own text and place; that text is a part of the block,
from a brace up to another one. -/
theorem ofText_slice {first : Nat} {us : List Piece} {inside : Body qs}
    (hpieces : pieces 0 b.text = .ok (us ++ .sign '{' first :: qs))
    (h : readBody b [] qs = .ok inside) (isArray : Bool) :
    ofText (b.slice first inside.stop) (b.place first) isArray =
        .ok ⟨b.slice first inside.stop, isArray, inside.entries, b.place first⟩ ∧
      (b.slice first inside.stop).toList.head? = some '{' ∧
      (b.slice first inside.stop).toList.getLast? = some '}' ∧
      b.text.take first ++ ((b.slice first inside.stop).toList ++ b.text.drop inside.stop) =
        b.text := by
  obtain ⟨inner, last, hqs, hstop⟩ := stop_of_readBody h
  have htext : (b.slice first inside.stop).toList = (b.text.take (last + 1)).drop first := by
    rw [Block.slice, String.toList_ofList, hstop]
  -- the pieces of the part are those of the object
  replace hpieces : pieces 0 b.text =
      .ok (us ++ .sign '{' first :: (inner ++ .sign '}' last :: inside.rest)) :=
    hpieces.trans (congrArg (fun qs => Except.ok (us ++ .sign '{' first :: qs)) hqs)
  obtain ⟨ps, hpart, hmap⟩ := pieces_part hpieces
  have hoffset : ∀ p ∈ ps, p.offset + first < last + 1 := fun p hp => by
    have := offset_lt_of_mem_pieces hpart p hp
    rw [List.length_drop, List.length_take] at this
    omega
  obtain ⟨q, rs, rfl, hq, hrs⟩ := List.map_eq_cons_iff.mp hmap
  have hopen : q.isSign '{' = true := by rw [← isSign_shift, hq]; rfl
  obtain ⟨n, hentries, -, -⟩ := readEntries_part h []
    (by rw [hrs, List.append_assoc]; exact hqs) (List.forall_mem_cons.mp hoffset).2
  rw [List.append_nil] at hentries
  obtain ⟨hhead, hlast, haround⟩ := ends_part hpieces
  rw [← htext] at hpart
  change readEntries ⟨_, b.place first⟩ [] rs = _ at hentries
  rw [← htext] at hentries
  refine ⟨ofText_of_readEntries hpart hopen hentries isArray, ?_, ?_, ?_⟩
  · rw [htext, hhead]
  · rw [htext, hlast]
  · rw [htext, hstop, haround]

/-- The text of the shape is a part of the text, and its place is the one of that part. -/
def StandsIn (t : Shape) (cs : List Char) (position : Position) : Prop :=
  ∃ before after, cs = before ++ (t.raw.toList ++ after) ∧ t.position = position.after before

theorem StandsIn.trans {t u : Shape} {cs : List Char} {position : Position}
    (h : t.StandsIn u.raw.toList u.position) (hu : u.StandsIn cs position) :
    t.StandsIn cs position := by
  obtain ⟨before, after, hraw, hplace⟩ := h
  obtain ⟨before', after', rfl, hplace'⟩ := hu
  refine ⟨before' ++ before, after ++ after', ?_, ?_⟩
  · rw [hraw]
    simp only [List.append_assoc]
  · rw [hplace, hplace', Position.after_append]

/-- **A shape in a shape** is read from its own text and place, a part in braces of the text it
stands in. -/
theorem ofText_nested {raw : String} {position : Position} {isArray : Bool} {s : Shape}
    (h : ofText raw position isArray = .ok s) {e : ShapeEntry} (he : e ∈ s.entries) {u : Shape}
    (hu : e.shape = some u) :
    ofText u.raw u.position u.isArray = .ok u ∧ u.StandsIn raw.toList position ∧
      IsBraced u.raw.toList := by
  unfold ofText at h
  obtain ⟨ps, hps, h⟩ := Except.bind_eq_ok_iff.mp h
  obtain ⟨ps', hopen, h⟩ := Except.bind_eq_ok_iff.mp h
  obtain ⟨body, hbody, h⟩ := Except.bind_eq_ok_iff.mp h
  split at h
  next =>
      cases h
      obtain ⟨opening, rfl, -⟩ := expectSign_ok hopen
      obtain ⟨before, first, qs, rfl, inside, hinside, rfl⟩ := nested_of_readBody hbody he hu
      have hpieces : pieces 0 raw.toList = .ok ((opening :: before) ++ .sign '{' first :: qs) :=
        Except.mapError_eq_ok_iff.mp hps
      obtain ⟨hread, hhead, hlast, haround⟩ :=
        @ofText_slice ⟨raw.toList, position⟩ qs first _ inside hpieces hinside e.isArray
      exact ⟨hread, ⟨_, _, haround.symm, rfl⟩,
        isBraced_of_writes (writes_of_ofText hread).2 (isExpressible_ofText hread) hhead hlast⟩
  next => cases h

/-- The shape is the other one, or stands inside it at some depth. -/
inductive Contains : Shape → Shape → Prop
  | refl (s : Shape) : Contains s s
  | entry {s t u : Shape} {e : ShapeEntry} (mem : e ∈ s.entries) (shaped : e.shape = some u)
      (inside : Contains u t) : Contains s t

/-- **The shapes at any depth** of a shape that is read from a text in braces are parts of that text
in braces themselves, at their places, and are read from their own texts and places. -/
theorem standsIn_of_contains {s t : Shape} (h : s.Contains t)
    (hread : ofText s.raw s.position s.isArray = .ok s) (hbraced : IsBraced s.raw.toList) :
    ofText t.raw t.position t.isArray = .ok t ∧ t.StandsIn s.raw.toList s.position ∧
      IsBraced t.raw.toList := by
  induction h with
  | refl s => exact ⟨hread, ⟨[], [], by simp, rfl⟩, hbraced⟩
  | entry mem shaped _ ih =>
      obtain ⟨hread', hstands, hbraced'⟩ := ofText_nested hread mem shaped
      obtain ⟨hread'', hstands', hbraced''⟩ := ih hread' hbraced'
      exact ⟨hread'', hstands'.trans hstands, hbraced''⟩

end Shape

end Schemata
