import Mathlib.Data.List.Chain
import Schemata.Dialect

/-!
# Proofs — statements — scanning

How the text of a statement is taken apart by one who does not know the statement.  A double quote
opens a name and a single quote a string.  Within either, its quote written twice is that quote,
and written once it is the end; the other quote is a character like any.  `Sql.scan` reads a text
character by character and answers its parts, or nothing if the text ends between quotes.

* `Sql.State.parts?_foldl_written` — parts that are written one after the other are found again.
* `Sql.State.reads_step` — the parts that are found so far are what has been read so far.
* `Sql.scan_eq_some_iff` — so a text has the parts that it is written from, if these can be told
  apart (`Sql.Spaced`).  Two names without anything between them cannot: the quotes where they meet
  would be one quote of one name.
-/

namespace Schemata

namespace Sql

/-- What quotes stand around. -/
inductive Quote where
  | name
  | string
  deriving DecidableEq, Repr

def Quote.sign : Quote → Char
  | .name => '"'
  | .string => '\''

/-- The quote that a character opens. -/
def Quote.ofSign? (c : Char) : Option Quote :=
  if c = '"' then some .name else if c = '\'' then some .string else none

@[simp] theorem Quote.ofSign?_sign (q : Quote) : ofSign? q.sign = some q := by cases q <;> decide

/-- A character that opens a quote is its sign. -/
theorem Quote.sign_of_ofSign? {q : Quote} {c : Char} (h : ofSign? c = some q) : q.sign = c := by
  unfold ofSign? at h
  split at h
  next hc => cases h; exact hc.symm
  next =>
      split at h
      next hc => cases h; exact hc.symm
      next => cases h

/-- A part of a text: a character outside of quotes, or what is written between two. -/
inductive Part where
  | sign (c : Char)
  | quoted (q : Quote) (content : String)
  deriving DecidableEq, Repr

/-- How far a text is read.  Where the last character may have been the end of what is quoted, it
depends on the next one whether it was. -/
inductive State where
  | outside (done : List Part)
  | inside (done : List Part) (q : Quote) (content : List Char)
  | ending (done : List Part) (q : Quote) (content : List Char)
  deriving DecidableEq, Repr

namespace State

/-- A character is read outside of quotes. -/
def opened (done : List Part) (c : Char) : State :=
  match Quote.ofSign? c with
  | some q => .inside done q []
  | none => .outside (done ++ [.sign c])

/-- A character is read. -/
def step : State → Char → State
  | .outside done, c => opened done c
  | .inside done q content, c =>
    if c = q.sign then .ending done q content else .inside done q (content ++ [c])
  | .ending done q content, c =>
    if c = q.sign then .inside done q (content ++ [c])
    else opened (done ++ [.quoted q (String.ofList content)]) c

/-- The parts of a text that is read to its end, unless it ends between quotes. -/
def parts? : State → Option (List Part)
  | .outside done => some done
  | .inside _ _ _ => none
  | .ending done q content => some (done ++ [.quoted q (String.ofList content)])

end State

/-- The parts of a text. -/
def scan (text : String) : Option (List Part) :=
  (text.toList.foldl State.step (.outside [])).parts?

namespace Part

/-- A part as it is written. -/
def written : Part → List Char
  | .sign c => [c]
  | .quoted q content => (enclosed q.sign content).toList

/-- The character that a part begins with. -/
def first : Part → Char
  | .sign c => c
  | .quoted q _ => q.sign

/-- A character outside of quotes is none. -/
def IsProper : Part → Prop
  | .sign c => Quote.ofSign? c = none
  | .quoted _ _ => True

/-- Whether the second part may follow the first one. -/
def Apart : Part → Part → Prop
  | .quoted q _, .quoted r _ => q ≠ r
  | _, _ => True

/-- How far a text is read with the part. -/
def read (done : List Part) : Part → State
  | .sign c => .outside (done ++ [.sign c])
  | .quoted q content => .ending done q content.toList

/-- What is quoted by the quote, if the part is that. -/
def content? (q : Quote) : Part → Option String
  | .sign _ => none
  | .quoted r content => if r = q then some content else none

/-- The part without what is quoted. -/
def blank : Part → Part
  | .sign c => .sign c
  | .quoted q _ => .quoted q ""

end Part

/-- What is quoted by the quote in a list of parts. -/
def contents (q : Quote) (ps : List Part) : List String := ps.filterMap (Part.content? q)

/-- Parts that can be told apart when they are written one after the other. -/
structure Spaced (ps : List Part) : Prop where
  proper : ∀ p ∈ ps, p.IsProper
  apart : ps.IsChain Part.Apart

variable {σ : State} {done ps : List Part} {p : Part} {q : Quote} {c : Char} {cs : List Char}

theorem spaced_nil : Spaced [] := ⟨fun _ h => absurd h List.not_mem_nil, .nil⟩

/-- Two lists of parts can be told apart together if each can, and the last of one from the first of
the other. -/
theorem spaced_append_iff {qs : List Part} :
    Spaced (ps ++ qs) ↔ Spaced ps ∧ Spaced qs ∧ ∀ a ∈ ps.getLast?, ∀ b ∈ qs.head?, a.Apart b := by
  constructor
  · rintro ⟨hproper, hapart⟩
    obtain ⟨hps, hqs, hmeet⟩ := List.isChain_append.mp hapart
    exact ⟨⟨fun p hp => hproper p (List.mem_append_left qs hp), hps⟩,
      ⟨fun p hp => hproper p (List.mem_append_right ps hp), hqs⟩, hmeet⟩
  · rintro ⟨hps, hqs, hmeet⟩
    refine ⟨fun p hp => ?_, List.isChain_append.mpr ⟨hps.apart, hqs.apart, hmeet⟩⟩
    rcases List.mem_append.mp hp with hp | hp
    · exact hps.proper p hp
    · exact hqs.proper p hp

/-- One more part can be told apart if it is proper and may follow the last one. -/
theorem spaced_concat_iff :
    Spaced (ps ++ [p]) ↔ Spaced ps ∧ p.IsProper ∧ ∀ a ∈ ps.getLast?, a.Apart p := by
  have hone : Spaced [p] ↔ p.IsProper :=
    ⟨fun h => h.proper p List.mem_cons_self,
      fun h => ⟨fun r hr => by rwa [List.mem_singleton.mp hr], .singleton p⟩⟩
  simp [spaced_append_iff, hone]

/-- Two more parts can be told apart if the second one may follow the first. -/
theorem spaced_concat_concat_iff {next : Part} :
    Spaced (ps ++ [p] ++ [next]) ↔ Spaced (ps ++ [p]) ∧ next.IsProper ∧ p.Apart next := by
  rw [spaced_concat_iff, List.getLast?_concat]
  simp

/-- A proper character opens no quote. -/
theorem Part.ne_sign_of_isProper (h : (Part.sign c).IsProper) (q : Quote) : c ≠ q.sign := by
  rintro rfl
  rw [Part.IsProper, Quote.ofSign?_sign] at h
  cases h

/-- The quotes have different signs. -/
theorem Quote.sign_inj {r : Quote} : q.sign = r.sign ↔ q = r := by
  cases q <;> cases r <;> decide

/-- What may follow something quoted is what does not begin with the quote. -/
theorem Part.apart_quoted_iff {content : String} (hp : p.IsProper) :
    (Part.quoted q content).Apart p ↔ p.first ≠ q.sign := by
  cases p with
  | sign c => exact iff_of_true trivial (ne_sign_of_isProper hp q)
  | quoted r _ => exact ne_comm.trans (not_congr Quote.sign_inj.symm)

/-! ### Written parts are found again -/

namespace State

/-- What has its quotes doubled is read as what is quoted. -/
theorem foldl_doubled (content cs : List Char) :
    (doubled q.sign cs).foldl step (.inside done q content) = .inside done q (content ++ cs) := by
  induction cs generalizing content with
  | nil => rw [List.append_nil]; rfl
  | cons c cs ih =>
      have hc : (if c = q.sign then [q.sign, q.sign] else [c]).foldl step (.inside done q content) =
          .inside done q (content ++ [c]) := by
        split
        next h => subst h; simp [step]
        next h => simp [step, h]
      rw [doubled_cons, List.foldl_append, hc, ih, List.append_assoc, List.singleton_append]

/-- **One part.**  A part whose first character is read outside of quotes is read as that part. -/
theorem foldl_written_part (hp : p.IsProper) (h : σ.step p.first = opened done p.first) :
    p.written.foldl step σ = p.read done := by
  cases p with
  | sign c =>
      have hc : opened done c = .outside (done ++ [Part.sign c]) := by
        rw [opened, show Quote.ofSign? c = none from hp]
      exact h.trans hc
  | quoted q content =>
      have hopen : σ.step q.sign = .inside done q [] := by
        rw [show σ.step q.sign = _ from h, opened, Part.first, Quote.ofSign?_sign]
      rw [Part.written, enclosed, String.toList_ofList, List.cons_append, List.foldl_cons, hopen,
        List.foldl_append, foldl_doubled, List.nil_append]
      simp [step, Part.read]

/-- Behind a part, the parts that are read are those before and that one. -/
theorem parts?_read : (p.read done).parts? = some (done ++ [p]) := by
  cases p with
  | sign c => rfl
  | quoted q content => rw [Part.read, parts?, String.ofList_toList]

/-- A part that may follow begins outside of quotes. -/
theorem step_read {next : Part} (hnext : next.IsProper) (h : p.Apart next) :
    (p.read done).step next.first = opened (done ++ [p]) next.first := by
  cases p with
  | sign c => rfl
  | quoted q content =>
      rw [Part.read, step, String.ofList_toList]
      exact if_neg ((Part.apart_quoted_iff hnext).mp h)

/-- **Many parts.**  The next one always begins outside of quotes. -/
theorem parts?_foldl_written (hps : Spaced ps) (hdone : σ.parts? = some done)
    (hnext : ∀ p ∈ ps.head?, σ.step p.first = opened done p.first) :
    ((ps.flatMap Part.written).foldl step σ).parts? = some (done ++ ps) := by
  induction ps generalizing σ done with
  | nil => rw [List.append_nil]; exact hdone
  | cons p ps ih =>
      obtain ⟨hproper, hapart⟩ := hps
      have hrest : ∀ r ∈ ps, r.IsProper := fun r hr => hproper r (List.mem_cons_of_mem p hr)
      rw [List.flatMap_cons, List.foldl_append,
        foldl_written_part (hproper p List.mem_cons_self) (hnext p rfl),
        ih ⟨hrest, hapart.tail⟩ parts?_read, List.append_assoc, List.singleton_append]
      exact fun r hr => step_read (hrest r (List.mem_of_head? hr)) (hapart.rel_head? hr)

/-! ### What is found is what is written -/

/-- What has been read of a text tells the text, and whatever part is begun may stand there. -/
def Reads : State → List Char → Prop
  | .outside done, cs => (∀ p, p.IsProper → Spaced (done ++ [p])) ∧ done.flatMap Part.written = cs
  | .inside done q content, cs =>
    Spaced (done ++ [.quoted q (String.ofList content)]) ∧
      done.flatMap Part.written ++ q.sign :: doubled q.sign content = cs
  | .ending done q content, cs =>
    Spaced (done ++ [.quoted q (String.ofList content)]) ∧
      (done ++ [Part.quoted q (String.ofList content)]).flatMap Part.written = cs

/-- What is quoted makes no difference to what may follow. -/
theorem spaced_quoted_iff {content content' : String} :
    Spaced (done ++ [Part.quoted q content]) ↔ Spaced (done ++ [Part.quoted q content']) := by
  rw [spaced_concat_iff, spaced_concat_iff]
  refine and_congr_right' (and_congr_right' (forall₂_congr fun a _ => ?_))
  cases a <;> rfl

/-- A character that may begin the next part is read as the beginning of it. -/
theorem reads_opened (hcs : done.flatMap Part.written = cs)
    (h : ∀ p : Part, p.IsProper → p.first = c → Spaced (done ++ [p])) :
    (opened done c).Reads (cs ++ [c]) := by
  unfold opened
  cases hc : Quote.ofSign? c with
  | none =>
      have hdone : Spaced (done ++ [Part.sign c]) := h (.sign c) hc rfl
      refine ⟨fun p hp => spaced_concat_concat_iff.mpr ⟨hdone, hp, trivial⟩, ?_⟩
      rw [List.flatMap_append, hcs]
      rfl
  | some q =>
      have hsign : q.sign = c := Quote.sign_of_ofSign? hc
      refine ⟨h (.quoted q "") trivial hsign, ?_⟩
      rw [hcs, hsign]
      rfl

/-- **One character.**  The text that has been read grows by it. -/
theorem reads_step (h : σ.Reads cs) (c : Char) : (σ.step c).Reads (cs ++ [c]) := by
  cases σ with
  | outside done => exact reads_opened h.2 fun p hp _ => h.1 p hp
  | inside done q content =>
      obtain ⟨hspaced, rfl⟩ := h
      rw [step]
      split
      next hc =>
          refine ⟨hspaced, ?_⟩
          simp [Part.written, enclosed, hc]
      next hc =>
          refine ⟨spaced_quoted_iff.mp hspaced, ?_⟩
          simp [doubled, hc]
  | ending done q content =>
      obtain ⟨hspaced, rfl⟩ := h
      rw [step]
      split
      next hc =>
          refine ⟨spaced_quoted_iff.mp hspaced, ?_⟩
          simp [Part.written, enclosed, doubled, hc]
      next hc =>
          refine reads_opened rfl fun p hp hfirst => spaced_concat_concat_iff.mpr ⟨hspaced, hp, ?_⟩
          rw [Part.apart_quoted_iff hp, hfirst]
          exact hc

/-- **Many characters.** The text that has been read grows by them. -/
theorem reads_foldl (h : σ.Reads cs) (ds : List Char) : (ds.foldl step σ).Reads (cs ++ ds) := by
  induction ds generalizing σ cs with
  | nil => rwa [List.append_nil]
  | cons d ds ih =>
      have := ih (reads_step h d)
      rwa [List.append_assoc, List.singleton_append] at this

/-- What is read to its end are parts that can be told apart, and that write the text. -/
theorem spaced_of_reads (h : σ.Reads cs) (hps : σ.parts? = some ps) :
    Spaced ps ∧ ps.flatMap Part.written = cs := by
  cases σ with
  | outside done =>
      cases hps
      exact ⟨(spaced_append_iff.mp (h.1 (.quoted .name "") trivial)).1, h.2⟩
  | inside done q content => cases hps
  | ending done q content =>
      cases hps
      exact h

end State

/-- **The parts of a text.**  A text is read as the parts that it is written from, if they can be
told apart, and as nothing else. -/
theorem scan_eq_some_iff {text : String} :
    scan text = some ps ↔ Spaced ps ∧ ps.flatMap Part.written = text.toList := by
  constructor
  · intro h
    have start : (State.outside []).Reads [] :=
      ⟨fun p hp => spaced_concat_iff.mpr ⟨spaced_nil, hp, by simp⟩, rfl⟩
    exact State.spaced_of_reads (State.reads_foldl start text.toList) h
  · rintro ⟨hps, htext⟩
    unfold scan
    rw [← htext, State.parts?_foldl_written hps rfl fun _ _ => rfl, List.nil_append]

/-- A string is read until its own quote; a name in it is no name. -/
example : scan "'it''s \"one\"' \"a\"\"b\"" =
    some [.quoted .string "it's \"one\"", .sign ' ', .quoted .name "a\"b"] := by decide

variable {qs : List Part} {w : String} {α β γ : Type}

/-! ### Signs -/

/-- The signs of a text. -/
def signs (w : String) : List Part := w.toList.map .sign

/-- A text without quotes. -/
def IsBare (w : String) : Prop := ∀ c ∈ w.toList, Quote.ofSign? c = none

-- by the signs of the text, and not by all characters there are
instance (w : String) : Decidable (IsBare w) :=
  List.decidableBAll (fun c => Quote.ofSign? c = none) w.toList

@[simp] theorem isBare_append_iff {v : String} : IsBare (v ++ w) ↔ IsBare v ∧ IsBare w := by
  simp [IsBare, or_imp, forall_and]

@[simp] theorem flatMap_written_signs (w : String) :
    (signs w).flatMap Part.written = w.toList := by
  simp [signs, Part.written, List.flatMap_map]

@[simp] theorem contents_append (q : Quote) (ps qs : List Part) :
    contents q (ps ++ qs) = contents q ps ++ contents q qs := List.filterMap_append

@[simp] theorem contents_signs (q : Quote) (w : String) : contents q (signs w) = [] := by
  simp [contents, signs, Part.content?]

@[simp] theorem contents_quoted_cons (q r : Quote) (content : String) (ps : List Part) :
    contents q (.quoted r content :: ps) =
      if r = q then content :: contents q ps else contents q ps := by
  by_cases h : r = q <;> simp [contents, Part.content?, h]

@[simp] theorem contents_nil (q : Quote) : contents q [] = [] := rfl

@[simp] theorem map_blank_signs (w : String) : (signs w).map Part.blank = signs w := by
  simp [signs, Part.blank]

/-! ### Spaced parts -/

/-- Signs may stand before anything. -/
theorem apart_of_mem_getLast?_signs {a : Part} (h : a ∈ (signs w).getLast?) (b : Part) :
    a.Apart b := by
  obtain ⟨c, -, rfl⟩ := List.mem_map.mp (List.mem_of_getLast? h)
  trivial

theorem apart_of_mem_head?_signs {b : Part} (h : b ∈ (signs w).head?) (a : Part) : a.Apart b := by
  obtain ⟨c, -, rfl⟩ := List.mem_map.mp (List.mem_of_head? h)
  cases a <;> trivial

/-- The signs of a text can be told apart exactly if it is without quotes. -/
@[simp] theorem spaced_signs_iff : Spaced (signs w) ↔ IsBare w := by
  constructor
  · exact fun h c hc => h.proper (.sign c) (List.mem_map_of_mem hc)
  · intro h
    have hchain : (w.toList.map Part.sign).Pairwise Part.Apart :=
      List.pairwise_map.mpr (List.pairwise_of_forall fun _ _ => trivial)
    refine ⟨fun p hp => ?_, hchain.isChain⟩
    obtain ⟨c, hc, rfl⟩ := List.mem_map.mp hp
    exact h c hc

@[simp] theorem spaced_signs_append_iff : Spaced (signs w ++ ps) ↔ IsBare w ∧ Spaced ps := by
  rw [spaced_append_iff, spaced_signs_iff]
  exact and_congr_right' (and_iff_left fun a ha b _ => apart_of_mem_getLast?_signs ha b)

@[simp] theorem spaced_append_signs_iff : Spaced (ps ++ signs w) ↔ Spaced ps ∧ IsBare w := by
  rw [spaced_append_iff, spaced_signs_iff]
  exact and_congr_right' (and_iff_left fun a _ b hb => apart_of_mem_head?_signs hb a)

/-- Signs keep apart what stands around them. -/
theorem spaced_between_iff (hw : w ≠ "") :
    Spaced (ps ++ (signs w ++ qs)) ↔ Spaced ps ∧ IsBare w ∧ Spaced qs := by
  rw [spaced_append_iff, spaced_signs_append_iff]
  refine and_congr_right' (and_iff_left fun a _ b hb => ?_)
  rw [List.head?_append_of_ne_nil _ (by simpa [signs] using hw)] at hb
  exact apart_of_mem_head?_signs hb a

@[simp] theorem spaced_quoted (q : Quote) (content : String) : Spaced [.quoted q content] :=
  ⟨fun p hp => by rw [List.mem_singleton.mp hp]; trivial, .singleton _⟩

/-- Behind something quoted, signs need only be without quotes. -/
theorem spaced_quoted_signs_iff {content : String} :
    Spaced (.quoted q content :: signs w) ↔ IsBare w := by
  rw [← List.singleton_append, spaced_append_signs_iff]
  exact and_iff_right (spaced_quoted q content)

/-- Behind something quoted, signs keep what follows apart from it. -/
theorem spaced_quoted_between_iff {content : String} (hw : w ≠ "") :
    Spaced (.quoted q content :: (signs w ++ ps)) ↔ IsBare w ∧ Spaced ps := by
  rw [← List.singleton_append, spaced_between_iff hw]
  exact and_iff_right (spaced_quoted q content)

/-! ### Lists of parts with signs between them -/

/-- What can be done piece by piece can be done with pieces between which something stands. -/
theorem intercalate_hom {f : List α → List β} (hnil : f [] = [])
    (happend : ∀ xs ys, f (xs ++ ys) = f xs ++ f ys) (sep : List α) (pieces : List (List α)) :
    f (sep.intercalate pieces) = (f sep).intercalate (pieces.map f) := by
  induction pieces with
  | nil => exact hnil
  | cons piece pieces ih =>
      cases pieces with
      | nil => simp
      | cons next pieces =>
          rw [List.intercalate_cons_cons, happend, happend, ih]
          exact List.intercalate_cons_cons.symm

/-- Parts can be told apart if each list of them can, and there are signs between the lists. -/
theorem spaced_intercalate {pieces : List (List Part)} (hw : w ≠ "") (hbare : IsBare w)
    (h : ∀ ps ∈ pieces, Spaced ps) : Spaced ((signs w).intercalate pieces) := by
  induction pieces with
  | nil => exact spaced_nil
  | cons piece pieces ih =>
      have hrest := ih fun ps hps => h ps (List.mem_cons_of_mem piece hps)
      cases pieces with
      | nil => simpa using h piece List.mem_cons_self
      | cons next pieces =>
          rw [List.intercalate_cons_cons, List.append_assoc, spaced_between_iff hw]
          exact ⟨h piece List.mem_cons_self, hbare, hrest⟩

/-- Texts with a text between them are written from their parts. -/
theorem toList_intercalate_map {sep : String} {xs : List γ} {text : γ → String}
    {parts : γ → List Part}
    (h : ∀ x ∈ xs, (text x).toList = (parts x).flatMap Part.written) :
    (sep.intercalate (xs.map text)).toList =
      ((signs sep).intercalate (xs.map parts)).flatMap Part.written := by
  have hwritten := intercalate_hom (f := List.flatMap Part.written) List.flatMap_nil
    (fun _ _ => List.flatMap_append) (signs sep) (xs.map parts)
  rw [String.toList_intercalate, hwritten, flatMap_written_signs, List.map_map, List.map_map]
  exact congrArg _ (List.map_congr_left h)

/-- What is quoted in lists of parts with signs between them. -/
theorem contents_intercalate (q : Quote) (sep : String) (xs : List γ)
    (parts : γ → List Part) :
    contents q ((signs sep).intercalate (xs.map parts)) =
      xs.flatMap fun x => contents q (parts x) := by
  induction xs with
  | nil => rfl
  | cons x xs ih =>
      cases xs with
      | nil => simp
      | cons y xs =>
          rw [List.map_cons, List.map_cons, List.intercalate_cons_cons, contents_append,
            contents_append, contents_signs, List.append_nil, ← List.map_cons, ih]
          rfl

/-- Lists of parts with signs between them, without what is quoted. -/
theorem map_blank_intercalate (sep : String) (xs : List γ) (parts : γ → List Part) :
    ((signs sep).intercalate (xs.map parts)).map Part.blank =
      (signs sep).intercalate (xs.map fun x => (parts x).map Part.blank) := by
  rw [intercalate_hom List.map_nil fun _ _ => List.map_append, map_blank_signs, List.map_map]
  rfl

end Sql

end Schemata
