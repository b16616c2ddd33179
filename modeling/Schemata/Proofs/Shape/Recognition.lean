import Schemata.Proofs.Shape.Reading

/-!
# Proofs — shapes — what is recognized

The reader of blocks accepts what the syntax has, and nothing else.  A text that is cut into pieces
is one of marks with blanks between them (`laidOut_of_pieces`), and pieces that are read as an object
are the marks of its entries and the brace that closes it (`writesEntries_of_readBody`).  What is
wrong with any other text is told of at a place of it (`place_of_ofText`).

* `Shape.ofText_recognizes` — so reading accepts exactly the texts that write entries, and gives
  those.
-/

namespace Schemata.Shape

open Text

variable {b : Block} {p : Piece} {ps qs : List Piece}

/-! ### From text to marks -/

/-- More blanks may stand in front. -/
theorem laidOut_of_blank {c : Char} {cs : List Char} {ms : List Mark} (hc : isBlank c = true)
    (h : LaidOut ms cs) : LaidOut ms (c :: cs) := by
  cases h with
  | nil ends => exact .nil (List.forall_mem_cons.mpr ⟨hc, ends⟩)
  | @cons m ms gap cs between apart rest =>
      have hlaid : LaidOut (m :: ms) ((c :: gap) ++ (m.spelled ++ cs)) :=
        .cons (List.forall_mem_cons.mpr ⟨hc, between⟩) apart rest
      exact hlaid

theorem isWordPart_of_mem_signs {c : Char} (h : c ∈ signs) : isWordPart c = false := by
  have hall : signs.all (fun c => !isWordPart c) = true := by decide
  simpa using List.all_eq_true.mp hall c h

/-- **A text that is cut into pieces** is their marks, laid out. -/
theorem laidOut_of_pieces {offset : Nat} {cs : List Char} (h : pieces offset cs = .ok ps) :
    LaidOut (ps.map Piece.mark) cs := by
  fun_induction pieces offset cs generalizing ps with
  | case1 =>
      cases h
      exact .nil (List.forall_mem_nil _)
  | case2 offset c cs hblank ih => exact laidOut_of_blank hblank (ih h)
  | case3 offset c cs hblank hstart tail =>
      rename_i ih
      obtain ⟨rest, hrest, rfl⟩ := Except.map_eq_ok_iff.mp h
      have hcs : c :: cs = [] ++ ((c :: tail) ++ cs.drop tail.length) := by
        rw [List.nil_append, List.cons_append, List.cons.injEq]
        exact ⟨rfl, (List.prefix_iff_eq_append.mp (List.takeWhile_prefix _)).symm⟩
      rw [hcs]
      refine .cons (List.forall_mem_nil _) (fun d _ e he hclash => ?_) (ih hrest)
      -- the word is as long as it can be
      have hdrop : cs.drop tail.length = cs.dropWhile isWordPart := by
        have hsplit : tail ++ cs.dropWhile isWordPart = cs := List.takeWhile_append_dropWhile
        exact List.append_cancel_left
          ((List.prefix_iff_eq_append.mp (List.takeWhile_prefix _)).trans hsplit.symm)
      have hhead := List.head?_dropWhile_not isWordPart cs
      rw [← hdrop, Option.mem_def.mp he] at hhead
      exact absurd hclash.2 (by simpa using hhead)
  | case4 offset c cs hblank hstart hsign ih =>
      obtain ⟨rest, hrest, rfl⟩ := Except.map_eq_ok_iff.mp h
      have hcs : c :: cs = [] ++ ([c] ++ cs) := rfl
      rw [hcs]
      refine .cons (List.forall_mem_nil _) (fun d hd _ _ hclash => ?_) (ih hrest)
      obtain rfl : c = d := by simpa [Piece.mark, Mark.spelled] using hd
      rw [isWordPart_of_mem_signs (List.contains_iff_mem.mp hsign)] at hclash
      cases hclash.1
  | case5 => cases h

/-! ### From marks to entries -/

theorem mark_of_isSign {c : Char} (h : p.isSign c = true) : p.mark = .sign c := by
  cases p with
  | word => cases h
  | sign d offset => rw [Piece.mark, eq_of_beq h]

/-- A sign that is read stands in front. -/
theorem expectSign_ok {c : Char} (h : expectSign b c ps = .ok qs) :
    ∃ p, ps = p :: qs ∧ p.mark = .sign c := by
  unfold expectSign at h
  split at h
  next => cases h
  next p ps =>
      split at h
      next hp =>
          cases h
          exact ⟨p, rfl, mark_of_isSign hp⟩
      next => cases h

theorem expectWord_ok {problem : ShapeProblem} {w : String}
    (h : expectWord b problem ps = .ok (w, qs)) : ∃ offset, ps = .word w.toList offset :: qs := by
  unfold expectWord at h
  split at h
  next text offset ps =>
      cases h
      exact ⟨offset, by rw [String.toList_ofList]⟩
  next => cases h

theorem optionalSign_append (c : Char) (ps : List Piece) :
    ∃ os, ps = os ++ (optionalSign c ps).2 ∧
      os.map Piece.mark = if (optionalSign c ps).1 then [.sign c] else [] := by
  fun_cases optionalSign c ps with
  | case1 => exact ⟨[], rfl, rfl⟩
  | case2 p ps hp => exact ⟨[p], rfl, by rw [List.map_singleton, mark_of_isSign hp]; rfl⟩
  | case3 p ps hp => exact ⟨[], rfl, rfl⟩

/-- An opening brace that is read stands in front. -/
theorem openBrace?_eq_some {first : Nat} (h : openBrace? ps = some (first, qs)) :
    ∃ p, ps = p :: qs ∧ p.mark = .sign '{' := by
  unfold openBrace? at h
  split at h
  next => cases h
  next p ps =>
      split at h
      next hp =>
          cases h
          exact ⟨p, rfl, mark_of_isSign hp⟩
      next => cases h

/-- An array mark that is read stands in front. -/
theorem arrayMark_ok {isArray : Bool} (h : arrayMark b ps = .ok (isArray, qs)) :
    ∃ os, ps = os ++ qs ∧ os.map Piece.mark = arrayMarks isArray := by
  obtain ⟨os, hps, hos⟩ := optionalSign_append '[' ps
  unfold arrayMark at h
  split at h
  next rest heq =>
      rw [heq] at hps hos
      obtain ⟨rest', hsign, hpair⟩ := Except.map_eq_ok_iff.mp h
      cases hpair
      obtain ⟨p, rfl, hp⟩ := expectSign_ok hsign
      refine ⟨os ++ [p], by rw [hps, List.append_assoc, List.singleton_append], ?_⟩
      rw [List.map_append, hos, List.map_singleton, hp]
      rfl
  next rest heq =>
      rw [heq] at hps hos
      cases h
      exact ⟨os, hps, hos⟩

/-- What is read as the front of an entry is a name, a sign if it is optional, and a colon. -/
theorem entryHead_ok {name : String} {isOptional : Bool}
    (h : entryHead b ps = .ok ((name, isOptional), qs)) :
    ∃ (offset : Nat) (os : List Piece) (colon : Piece),
      ps = .word name.toList offset :: (os ++ colon :: qs) ∧
      os.map Piece.mark = optionMark isOptional ∧ colon.mark = .sign ':' := by
  unfold entryHead at h
  obtain ⟨⟨w, ps₁⟩, hw, h⟩ := Except.bind_eq_ok_iff.mp h
  obtain ⟨ps₂, hs, h⟩ := Except.bind_eq_ok_iff.mp h
  obtain ⟨offset, hps⟩ := expectWord_ok hw
  obtain ⟨os, hps₁, hos⟩ := optionalSign_append '?' ps₁
  obtain ⟨colon, hcolon, hmark⟩ := expectSign_ok hs
  cases h
  exact ⟨offset, os, colon, hps.trans (congrArg _ (hps₁.trans (congrArg _ hcolon))), hos, hmark⟩

/-- **Pieces that are read as an object** are the marks of its entries, and the brace that closes
it. -/
theorem writesEntries_of_readBody {seen : List String} {body : Body ps}
    (h : readBody b seen ps = .ok body) :
    ∃ inner closing, ps = inner ++ closing :: body.rest ∧ closing.mark = .sign '}' ∧
      WritesEntries (inner.map Piece.mark) body.entries := by
  fun_induction readBody b seen ps with
  | case1 | case3 | case5 | case6 | case7 | case8 | case9 => cases h
  | case2 seen p ps hclose =>
      cases h
      exact ⟨[], p, rfl, mark_of_isSign hclose, .nil⟩
  | case4 seen p ps hclose hseparator body' hbody ih =>
      cases h
      obtain ⟨inner, closing, hps, hclosing, hwrites⟩ := ih hbody
      refine ⟨p :: inner, closing, by rw [List.cons_append, ← hps], hclosing, ?_⟩
      rw [List.map_cons]
      rcases Bool.or_eq_true_iff.mp hseparator with hcomma | hsemicolon
      · exact mark_of_isSign hcomma ▸ .separator (.inl rfl) hwrites
      · exact mark_of_isSign hsemicolon ▸ .separator (.inr rfl) hwrites
  | case10 seen p ps hclose hseparator name isOptional ps₁ hhead h₁ read type htype isArray ps₃ hmark
      h₂ h₃ hseen entry body' hbody ihInside =>
      rename_i ihRest
      cases h
      obtain ⟨offset, os, colon, hps, hos, hcolon⟩ := entryHead_ok hhead
      obtain ⟨ks, hks, hmarks⟩ := arrayMark_ok hmark
      obtain ⟨inner, closing, hps₃, hclosing, hwrites⟩ := ihRest hbody
      dsimp only [read] at htype
      split at htype
      next first ps₂ hopen =>
          split at htype
          next => cases htype
          next inside hinside =>
              cases htype
              obtain ⟨brace, rfl, hbrace⟩ := openBrace?_eq_some hopen
              obtain ⟨inner', closing', hps₂, hclosing', hwrites'⟩ :=
                ihInside first ps₂ hopen hinside
              refine ⟨.word name.toList offset :: (os ++ colon :: brace :: (inner' ++
                closing' :: (ks ++ inner))), closing, ?_, hclosing, ?_⟩
              · dsimp only at hks
                refine hps.trans ?_
                simp only [List.cons_append, List.append_assoc, hps₂, hks, hps₃]
              · simp only [List.map_cons, List.map_append, hos, hcolon, hbrace, hclosing', hmarks]
                exact .object hwrites' hwrites
      next hopen =>
          split at htype
          next => cases htype
          next w rest hw =>
              cases htype
              obtain ⟨offset', rfl⟩ := expectWord_ok hw
              refine ⟨.word name.toList offset :: (os ++ colon :: .word w.toList offset' ::
                (ks ++ inner)), closing, ?_, hclosing, ?_⟩
              · dsimp only at hks
                refine hps.trans ?_
                simp only [List.cons_append, List.append_assoc, hks, hps₃]
              · simp only [List.map_cons, List.map_append, hos, hcolon, hmarks]
                exact .leaf hwrites

theorem readBody_suffix {seen : List String} {body : Body ps} (h : readBody b seen ps = .ok body) :
    body.rest <:+ ps := by
  obtain ⟨inner, closing, hps, -, -⟩ := writesEntries_of_readBody h
  exact ⟨inner ++ [closing], by rw [List.append_assoc, List.singleton_append, ← hps]⟩

/-- What is read of a text is written by it. -/
theorem writes_of_ofText {raw : String} {position : Position} {isArray : Bool} {s : Shape}
    (h : ofText raw position isArray = .ok s) :
    s = ⟨raw, isArray, s.entries, position⟩ ∧ Writes raw s.entries := by
  unfold ofText at h
  obtain ⟨ps, hps, h⟩ := Except.bind_eq_ok_iff.mp h
  obtain ⟨ps', hopen, h⟩ := Except.bind_eq_ok_iff.mp h
  obtain ⟨body, hbody, h⟩ := Except.bind_eq_ok_iff.mp h
  split at h
  next hrest =>
      cases h
      obtain ⟨opening, rfl, hopening⟩ := expectSign_ok hopen
      obtain ⟨inner, closing, hinner, hclosing, hwrites⟩ := writesEntries_of_readBody hbody
      have hlaid := laidOut_of_pieces (Except.mapError_eq_ok_iff.mp hps)
      rw [hinner, List.isEmpty_iff.mp hrest] at hlaid
      refine ⟨rfl, inner.map Piece.mark, hwrites, ?_⟩
      simpa only [braced, List.map_cons, List.map_append, List.map_nil, hopening, hclosing]
        using hlaid
  next => cases h

/-! ### Where a fault is -/

/-- The fault is told of at one of the pieces, or at the end of the block. -/
def FaultIn (b : Block) (ps : List Piece) (e : ShapeFault) : Prop :=
  ∃ qs, qs <:+ ps ∧ e.position = b.here qs

section

variable {e : ShapeFault}

theorem FaultIn.of_suffix (h : FaultIn b qs e) (hqs : qs <:+ ps) : FaultIn b ps e := by
  obtain ⟨rs, hrs, he⟩ := h
  exact ⟨rs, hrs.trans hqs, he⟩

theorem faultIn_fault (b : Block) (problem : ShapeProblem) (ps : List Piece) :
    FaultIn b ps (b.fault problem ps) := ⟨ps, List.suffix_rfl, rfl⟩

/-- Where a sign is missing the fault is in the pieces. -/
theorem faultIn_expectSign {c : Char} (h : expectSign b c ps = .error e) : FaultIn b ps e := by
  unfold expectSign at h
  split at h
  next => cases h; exact faultIn_fault ..
  next =>
      split at h
      next => cases h
      next => cases h; exact faultIn_fault ..

theorem faultIn_expectWord {problem : ShapeProblem} (h : expectWord b problem ps = .error e) :
    FaultIn b ps e := by
  unfold expectWord at h
  split at h
  next => cases h
  next => cases h; exact faultIn_fault ..

/-- Where an entry does not begin the fault is in the pieces. -/
theorem faultIn_entryHead (h : entryHead b ps = .error e) : FaultIn b ps e := by
  unfold entryHead at h
  rcases Except.bind_eq_error_iff.mp h with hw | ⟨⟨w, ps₁⟩, hw, h⟩
  · exact faultIn_expectWord hw
  · rcases Except.bind_eq_error_iff.mp h with hs | ⟨ps₂, -, h⟩
    · exact (faultIn_expectSign hs).of_suffix
        ((optionalSign_suffix '?' ps₁).trans (expectWord_suffix hw))
    · cases h

/-- Where an array mark is not closed the fault is in the pieces. -/
theorem faultIn_arrayMark (h : arrayMark b ps = .error e) : FaultIn b ps e := by
  have hsuffix := optionalSign_suffix '[' ps
  unfold arrayMark at h
  split at h
  next rest heq =>
      rw [heq] at hsuffix
      exact (faultIn_expectSign (Except.map_eq_error_iff.mp h)).of_suffix hsuffix
  next => cases h

theorem length_lt_of_openBrace? {first : Nat} (hopen : openBrace? ps = some (first, qs))
    (body : Body qs) : body.rest.length < ps.length :=
  Nat.lt_trans body.shorter (openBrace?_length hopen)

/-- The type of an entry, as `readBody` reads it. -/
def entryType (b : Block) (ps : List Piece) : Except ShapeFault (EntryType ps) :=
  match hopen : openBrace? ps with
  | some (first, qs) =>
    match readBody b [] qs with
    | .error e => .error e
    | .ok body =>
      .ok ⟨"object", some ⟨b.slice first body.stop, false, body.entries, b.place first⟩, body.rest,
        length_lt_of_openBrace? hopen body⟩
  | none =>
    match hw : expectWord b .expectedType ps with
    | .error e => .error e
    | .ok (w, qs) => .ok ⟨w, none, qs, expectWord_length hw⟩

/-- Behind a type the rest of the pieces is left. -/
theorem entryType_suffix {type : EntryType ps} (h : entryType b ps = .ok type) :
    type.rest <:+ ps := by
  unfold entryType at h
  split at h
  next first qs hopen =>
      split at h
      next => cases h
      next body hbody =>
          cases h
          exact (readBody_suffix hbody).trans (openBrace?_suffix hopen)
  next =>
      split at h
      next => cases h
      next hw =>
          cases h
          exact expectWord_suffix hw

/-- An object that cannot be read is told of at one of its pieces. -/
theorem faultIn_readBody {seen : List String} (h : readBody b seen ps = .error e) :
    FaultIn b ps e := by
  fun_induction readBody b seen ps with
  | case1 => cases h; exact faultIn_fault ..
  | case2 | case4 | case10 => cases h
  | case3 seen p ps hclose hseparator e' hbody ih =>
      cases h
      exact (ih hbody).of_suffix (List.suffix_cons p ps)
  | case5 seen p ps hclose hseparator e' hhead =>
      cases h
      exact faultIn_entryHead hhead
  | case6 seen p ps hclose hseparator name isOptional ps₁ hhead h₁ read e' htype ih =>
      cases h
      refine FaultIn.of_suffix ?_ (entryHead_suffix hhead)
      dsimp only [read] at htype
      split at htype
      next first qs hopen =>
          split at htype
          next hbody =>
              cases htype
              exact (ih first qs hopen hbody).of_suffix (openBrace?_suffix hopen)
          next => cases htype
      next =>
          split at htype
          next hw =>
              cases htype
              exact faultIn_expectWord hw
          next => cases htype
  | case7 seen p ps hclose hseparator name isOptional ps₁ hhead h₁ read type htype e' hmark =>
      cases h
      have hrest : type.rest <:+ ps₁ := entryType_suffix htype
      exact (faultIn_arrayMark hmark).of_suffix (hrest.trans (entryHead_suffix hhead))
  | case8 seen p ps hclose hseparator name isOptional ps₁ hhead h₁ read type htype isArray ps₃ hmark =>
      cases h
      have hrest : type.rest <:+ ps₁ := entryType_suffix htype
      exact (faultIn_fault ..).of_suffix
        ((arrayMark_suffix hmark).trans (hrest.trans (entryHead_suffix hhead)))
  | case9 seen p ps hclose hseparator name isOptional ps₁ hhead h₁ read type htype isArray ps₃ hmark
      h₂ h₃ hseen e' hbody _ ih =>
      cases h
      have hrest : type.rest <:+ ps₁ := entryType_suffix htype
      exact (ih hbody).of_suffix
        ((arrayMark_suffix hmark).trans (hrest.trans (entryHead_suffix hhead)))

/-- Pieces begin in the text. -/
theorem offset_lt_of_mem_pieces {offset : Nat} {cs : List Char} (h : pieces offset cs = .ok ps) :
    ∀ p ∈ ps, p.offset < offset + cs.length := by
  fun_induction pieces offset cs generalizing ps with
  | case1 => cases h; exact List.forall_mem_nil _
  | case2 offset c cs hblank ih =>
      intro p hp
      have := ih h p hp
      rw [List.length_cons]
      omega
  | case3 offset c cs hblank hstart tail =>
      rename_i ih
      obtain ⟨rest, hrest, rfl⟩ := Except.map_eq_ok_iff.mp h
      have htail : tail.length ≤ cs.length := (List.takeWhile_sublist _).length_le
      rw [List.length_cons]
      refine List.forall_mem_cons.mpr ⟨Nat.lt_add_of_pos_right (Nat.succ_pos _), fun p hp => ?_⟩
      have := ih hrest p hp
      rw [List.length_drop] at this
      omega
  | case4 offset c cs hblank hstart hsign ih =>
      obtain ⟨rest, hrest, rfl⟩ := Except.map_eq_ok_iff.mp h
      rw [List.length_cons]
      refine List.forall_mem_cons.mpr ⟨Nat.lt_add_of_pos_right (Nat.succ_pos _), fun p hp => ?_⟩
      have := ih hrest p hp
      omega
  | case5 => cases h

/-- A character that begins no piece stands in the text. -/
theorem offset_lt_of_pieces_error {offset n : Nat} {c : Char} {cs : List Char}
    (h : pieces offset cs = .error (n, c)) : n < offset + cs.length := by
  fun_induction pieces offset cs with
  | case1 => cases h
  | case2 offset d cs hblank ih =>
      have := ih h
      rw [List.length_cons]
      omega
  | case3 offset d cs hblank hstart tail =>
      rename_i ih
      have htail : tail.length ≤ cs.length := (List.takeWhile_sublist _).length_le
      have := ih (Except.map_eq_error_iff.mp h)
      rw [List.length_drop] at this
      rw [List.length_cons]
      omega
  | case4 offset d cs hblank hstart hsign ih =>
      have := ih (Except.map_eq_error_iff.mp h)
      rw [List.length_cons]
      omega
  | case5 offset d cs =>
      cases h
      rw [List.length_cons]
      omega

/-- **A text that is no object** is told of at a place of it, or at its end. -/
theorem place_of_ofText {raw : String} {position : Position} {isArray : Bool}
    (h : ofText raw position isArray = .error e) :
    ∃ n ≤ raw.toList.length, e.position = position.after (raw.toList.take n) := by
  have hfound : ∀ {ps : List Piece}, pieces 0 raw.toList = .ok ps →
      FaultIn ⟨raw.toList, position⟩ ps e →
      ∃ n ≤ raw.toList.length, e.position = position.after (raw.toList.take n) := by
    rintro ps hps ⟨qs, hqs, he⟩
    refine ⟨_, ?_, he⟩
    cases qs with
    | nil => exact Nat.le_refl _
    | cons q qs =>
        have := offset_lt_of_mem_pieces hps q (hqs.subset List.mem_cons_self)
        rw [Nat.zero_add] at this
        exact Nat.le_of_lt this
  unfold ofText at h
  rcases Except.bind_eq_error_iff.mp h with hps | ⟨ps, hps, h⟩
  · cases hpieces : pieces 0 raw.toList with
    | ok ps => rw [hpieces] at hps; cases hps
    | error e' =>
        rw [hpieces] at hps
        cases hps
        have hn := offset_lt_of_pieces_error hpieces
        exact ⟨e'.1, by omega, rfl⟩
  · have hps := Except.mapError_eq_ok_iff.mp hps
    rcases Except.bind_eq_error_iff.mp h with hopen | ⟨ps', hopen, h⟩
    · exact hfound hps (faultIn_expectSign hopen)
    · have hps' := expectSign_suffix hopen
      rcases Except.bind_eq_error_iff.mp h with hbody | ⟨body, hbody, h⟩
      · exact hfound hps ((faultIn_readBody hbody).of_suffix hps')
      · split at h
        · cases h
        · cases h
          exact hfound hps ((faultIn_fault ..).of_suffix ((readBody_suffix hbody).trans hps'))

end

/-! ### What is recognized -/

/-- Entries that can be expressed are written by some text. -/
theorem exists_writes {es : List ShapeEntry} (h : AreExpressible es) : ∃ raw, Writes raw es := by
  obtain ⟨raw, hraw⟩ :=
    exists_isText (show IsExpressible ⟨"", false, es, .nowhere⟩ from h)
  exact ⟨raw, hraw.writes⟩

/-- **The reader of blocks accepts exactly its language.**  A text is read if and only if it writes
entries, in any layout, whose keys and types are words and whose keys differ in each object.  What is
read is the text itself with entries that it writes; those are the entries it was written from, but
for the texts and places of the shapes inside them.  What is wrong with any other text is told of at
a place of it.  And there is a text for all such entries. -/
theorem ofText_recognizes (position : Position) (isArray : Bool) :
    (∀ raw : String,
      ((∃ s, ofText raw position isArray = .ok s) ↔ ∃ es, AreExpressible es ∧ Writes raw es) ∧
      (∀ s, ofText raw position isArray = .ok s →
        s = ⟨raw, isArray, s.entries, position⟩ ∧ AreExpressible s.entries ∧
          Writes raw s.entries) ∧
      (∀ es, AreExpressible es → Writes raw es →
        ∃ es', ofText raw position isArray = .ok ⟨raw, isArray, es', position⟩ ∧
          ShapeEntry.contentList es' = ShapeEntry.contentList es) ∧
      (∀ e, ofText raw position isArray = .error e →
        ∃ n ≤ raw.toList.length, e.position = position.after (raw.toList.take n))) ∧
    ∀ es, AreExpressible es → ∃ raw, Writes raw es := by
  refine ⟨fun raw => ⟨⟨?_, ?_⟩, fun s hs => ?_, fun es hes hraw => ?_, fun e => place_of_ofText⟩,
    fun es => exists_writes⟩
  · rintro ⟨s, hs⟩
    exact ⟨s.entries, isExpressible_ofText hs, (writes_of_ofText hs).2⟩
  · rintro ⟨es, hes, hraw⟩
    obtain ⟨es', hread, -⟩ := ofText_of_writes hraw hes position isArray
    exact ⟨_, hread⟩
  · obtain ⟨heq, hraw⟩ := writes_of_ofText hs
    exact ⟨heq, isExpressible_ofText hs, hraw⟩
  · exact ofText_of_writes hraw hes position isArray

end Schemata.Shape
