import Schemata.Display.Table
import Schemata.Proofs.Outcome

/-!
# Proofs — display — tables

What a table shows of the texts in its cells.  A cell is broken into lines between words, and but
for blanks nothing is lost there (`Wraps`, `broken_wraps`); a line is cut only if it is wider than
its column.  On a screen that is wide enough the columns are as wide as what they hold
(`Grid.fittedWidths_of_le`), and then a text of one line is one line of its cell
(`Grid.exists_showsWhole`).
-/

namespace Schemata.Display

-- Sums start from the zero of the core library, whichever algebra is imported.
attribute [local instance (high)] Zero.ofOfNat0

/-! ### Breaking lines -/

/-- The lines of a text are its parts, each without some of the blanks at its end. -/
def Wraps (cs : List Char) (ls : List (List Char)) : Prop :=
  ∃ parts, parts.flatten = cs ∧ List.Forall₂ (fun part l => ∃ blanks, part = l ++ blanks ∧
    ∀ c ∈ blanks, Text.isBlank c = true) parts ls

/-- A trimmed text has lost blanks alone. -/
theorem trimmedTo_append (size : Nat) (cs : List Char) :
    ∃ blanks, cs = trimmedTo size cs ++ blanks ∧ ∀ c ∈ blanks, Text.isBlank c = true := by
  unfold trimmedTo
  dsimp only
  generalize hn : min (cs.reverse.takeWhile Text.isBlank).length (cs.length - size) = n
  refine ⟨_, (List.take_append_drop _ cs).symm, fun c hc => ?_⟩
  have hmem : c ∈ cs.reverse.take n := by
    rw [List.take_reverse]
    exact List.mem_reverse.mpr hc
  have hbegins : cs.reverse.take n <+: cs.reverse.takeWhile Text.isBlank := by
    rw [List.prefix_iff_eq_take.mp (List.takeWhile_prefix Text.isBlank)]
    exact List.take_prefix_take_left (by omega)
  exact List.all_eq_true.mp List.all_takeWhile c (hbegins.subset hmem)

theorem flatten_spacedWords (cs : List Char) : (spacedWords cs).flatten = cs := by
  fun_induction spacedWords cs with
  | case1 => rfl
  | case2 c cs rest word ih =>
      rw [List.flatten_cons, ih, List.append_assoc, List.takeWhile_append_dropWhile]
      exact congrArg (c :: ·) List.takeWhile_append_dropWhile

/-- The words of a text are the whole of it, unless it is blank. -/
theorem flatten_wordsOf {cs : List Char} (h : wordsOf cs ≠ []) : (wordsOf cs).flatten = cs := by
  unfold wordsOf at h ⊢
  have hflatten := flatten_spacedWords (Text.stripLeft cs)
  cases hwords : spacedWords (Text.stripLeft cs) with
  | nil => simp [hwords] at h
  | cons word words =>
      rw [hwords, List.flatten_cons] at hflatten
      simp only [List.flatten_cons, List.append_assoc, hflatten]
      exact List.takeWhile_append_dropWhile

namespace Breaking

variable (b : Breaking) (columns : Nat)

theorem flatten_ended : b.ended.flatten = b.done.flatten ++ b.last := by
  unfold ended
  split
  next h => rw [List.isEmpty_iff.mp h, List.append_nil]
  next => simp

theorem flatten_ended_add (word : List Char) :
    (b.add columns false word).ended.flatten = b.ended.flatten ++ word := by
  unfold add
  simp only [Bool.and_false, Bool.false_eq_true, if_false]
  split
  · rw [flatten_ended, flatten_ended, List.append_assoc]
  · rw [flatten_ended]

/-- Words go to the last line or to the next, and none is lost. -/
theorem flatten_ended_foldl (words : List (List Char)) :
    (words.foldl (Breaking.add columns false) b).ended.flatten =
      b.ended.flatten ++ words.flatten := by
  induction words generalizing b with
  | nil => simp
  | cons word words ih => rw [List.foldl_cons, ih, flatten_ended_add, List.append_assoc]; rfl

end Breaking

/-- **Nothing but blanks is lost** where a text is broken between its words. -/
theorem broken_wraps (columns : Nat) (cs : List Char) : Wraps cs (broken columns false cs) := by
  have htrimmed (parts : List (List Char)) : List.Forall₂ (fun part l => ∃ blanks,
      part = l ++ blanks ∧ ∀ c ∈ blanks, Text.isBlank c = true) parts
      (parts.map (trimmedTo columns)) :=
    List.forall₂_map_right_iff.mpr
      (List.forall₂_same.mpr fun part _ => trimmedTo_append columns part)
  unfold broken
  split
  next => exact ⟨[cs], List.flatten_singleton, htrimmed [cs]⟩
  next words hwords =>
    refine ⟨_, ?_, htrimmed _⟩
    rw [Breaking.flatten_ended_foldl, flatten_wordsOf hwords]
    rfl

/-! ### Lines that fit -/

theorem width_append (cs ds : List Char) : width (cs ++ ds) = width cs + width ds := by
  simp [width]

theorem width_stripRight_le (cs : List Char) : width (Text.stripRight cs) ≤ width cs := by
  obtain ⟨blanks, -, hsplit⟩ := Text.stripLeft_append cs.reverse
  have hcs : cs = Text.stripRight cs ++ blanks.reverse := by
    rw [Text.stripRight, ← List.reverse_append, ← Text.stripLeft, ← hsplit, List.reverse_reverse]
  conv_rhs => rw [hcs, width_append]
  exact Nat.le_add_right _ _

/-- Words for which there is room on the last line go there. -/
theorem Breaking.foldl_add_of_le {columns : Nat} {b : Breaking} {words : List (List Char)}
    (htaken : b.taken = width b.last) (h : width (b.last ++ words.flatten) ≤ columns) :
    (words.foldl (Breaking.add columns false) b).ended =
      ({ b with last := b.last ++ words.flatten } : Breaking).ended := by
  induction words generalizing b with
  | nil => simp
  | cons word words ih =>
      have hroom : b.taken + width (Text.stripRight word) ≤ columns := by
        have := width_stripRight_le word
        simp only [List.flatten_cons, width_append] at h
        omega
      rw [List.foldl_cons, add, if_pos hroom, ih]
      · simp [ended]
      · rw [width_append, htaken]
      · simpa [List.append_assoc] using h

/-- A text that is not too wide is one line. -/
theorem broken_of_le {columns : Nat} {cs : List Char} (h : width cs ≤ columns) :
    broken columns false cs = [trimmedTo columns cs] := by
  unfold broken
  split
  next => rfl
  next words hwords =>
    have hflatten := flatten_wordsOf hwords
    have hne : cs ≠ [] := by
      rintro rfl
      exact hwords (by simp [wordsOf, Text.stripLeft, spacedWords])
    rw [Breaking.foldl_add_of_le (b := {}) rfl (by simpa [hflatten] using h), hflatten]
    simp [Breaking.ended, hne]

theorem expandTabs_of_not_mem {cs : List Char} (h : '\t' ∉ cs) (column : Nat) :
    expandTabs column cs = cs := by
  induction cs generalizing column with
  | nil => rfl
  | cons c cs ih =>
      rw [List.mem_cons, not_or] at h
      rw [expandTabs, if_neg (Ne.symm h.1), ih h.2]

namespace Grid

/-- A text of one line is as wide as its characters. -/
theorem naturalWidth_of_forall {cs : List Char} (h : ∀ c ∈ cs, endsLine c = false) :
    naturalWidth cs = width cs := by
  have hfold (longest last : Nat) : cs.foldl (fun (x : Nat × Nat) c =>
      if endsLine c then (max x.1 x.2, 0) else (x.1, x.2 + charWidth c)) (longest, last) =
      (longest, last + width cs) := by
    induction cs generalizing last with
    | nil => rfl
    | cons c cs ih =>
        rw [List.foldl_cons, h c List.mem_cons_self, if_neg Bool.false_ne_true,
          ih fun d hd => h d (List.mem_cons_of_mem c hd)]
        simp [width, Nat.add_assoc]
  have hwidth : naturalWidth cs = max (0, 0 + width cs).1 (0, 0 + width cs).2 := by
    rw [← hfold 0 0]
    rfl
  rw [hwidth]
  simp

/-- A line is cut only if it is wider than its column. -/
theorem shortened_of_le {w : Nat} {cs : List Char} (h : width cs ≤ w) : shortened w cs = cs :=
  if_neg (Nat.not_lt.mpr h)

/-- A column shows a text broken between its words, and cuts a line only if it is too wide. -/
def ShowsBroken (w : Nat) (cs : List Char) : Prop :=
  ∃ lines, List.Forall₂ Wraps (linesOf cs) lines ∧ cellLines w cs = lines.flatten.map (shortened w)

/-- A column shows a text in one line, but for blanks at its end. -/
def ShowsWhole (w : Nat) (cs : List Char) : Prop :=
  ∃ l blanks, cellLines w cs = [l] ∧ cs = l ++ blanks ∧ ∀ c ∈ blanks, Text.isBlank c = true

/-- **The lines of a cell** are its text, but for blanks and for what is cut. -/
theorem showsBroken (w : Nat) (cs : List Char) : ShowsBroken w cs := by
  refine ⟨(linesOf cs).map (broken w false), ?_, ?_⟩
  · exact List.forall₂_map_right_iff.mpr (List.forall₂_same.mpr fun l _ => broken_wraps w l)
  · rw [cellLines, List.map_flatten, List.map_map, ← List.flatMap_def]
    rfl

/-- A text of one line that is not wider than its column is the line of its cell. -/
theorem showsWhole_of_fits {w : Nat} {cs : List Char} (hline : ∀ c ∈ cs, c ≠ '\n' ∧ c ≠ '\t')
    (h : width cs ≤ w) : ShowsWhole w cs := by
  obtain ⟨blanks, htrimmed, hblank⟩ := trimmedTo_append w cs
  refine ⟨trimmedTo w cs, blanks, ?_, htrimmed, hblank⟩
  have hwidth : width (trimmedTo w cs) ≤ w := by
    have := congrArg width htrimmed
    rw [width_append] at this
    omega
  rw [cellLines, linesOf, Text.splitOn_of_not_mem fun hmem => (hline _ hmem).1 rfl]
  simp [expandTabs_of_not_mem fun hmem => (hline _ hmem).2 rfl, broken_of_le h,
    shortened_of_le hwidth]

/-- **Columns that fit on the screen** are as wide as what they hold. -/
theorem fittedWidths_of_le {ws : List Nat} (h : totalWidth ws ≤ screenWidth) :
    fittedWidths ws = ws := by
  have hsum : (ws.map (· + 2)).sum ≤ screenWidth - (ws.length + 1) := by
    have htotal : totalWidth ws = (ws.map (· + 2)).sum + (ws.length + 1) := by
      clear h
      unfold totalWidth
      induction ws with
      | nil => rfl
      | cons w ws ih =>
          simp only [List.map_cons, List.sum_cons, List.length_cons] at ih ⊢
          omega
    omega
  have hle : ∀ w ∈ ws, w + 2 ≤ (ws.map (· + 2)).sum := by
    clear h hsum
    induction ws with
    | nil => nofun
    | cons w ws ih =>
        intro v hv
        rw [List.map_cons, List.sum_cons]
        rcases List.mem_cons.mp hv with rfl | hv
        · omega
        · have := ih v hv
          omega
  have hpadded : (ws.map fun w => min (w + 2) (screenWidth - (ws.length + 1))) = ws.map (· + 2) :=
    List.map_congr_left fun w hw => Nat.min_eq_left (Nat.le_trans (hle w hw) hsum)
  unfold fittedWidths
  dsimp only
  rw [hpadded, Nat.sub_eq_zero_of_le hsum, narrowed, List.zipWith_map_right, List.zipWith_self]
  simp

/-! ### Whole tables -/

/-- The largest of some widths is no smaller than any of them. -/
theorem le_foldl_max {w top : Nat} {ws : List Nat} (h : w ≤ top ∨ w ∈ ws) :
    w ≤ ws.foldl max top := by
  induction ws generalizing top with
  | nil => exact h.resolve_right List.not_mem_nil
  | cons v ws ih =>
      refine ih ?_
      rw [List.mem_cons, ← or_assoc] at h
      exact h.imp_left fun h => by omega

/-- The texts of a table. -/
def texts (g : Grid) : List String := g.title :: g.columns.flatten

/-- A table of its texts as they are. -/
def verbatim (g : Grid) : String :=
  written (lines g.title.toList (g.columns.map fun column => column.map String.toList)
    g.rows.length)

/-- How wide the columns of a table would be on a screen without an end, its texts as they are. -/
def naturalWidths (g : Grid) : List Nat :=
  (g.columns.map fun column => column.map String.toList).map fun cells =>
    (cells.map naturalWidth).foldl max 0

variable {g : Grid}

/-- **On a screen that is wide enough** a text without line breaks and tabs is one line, and but for
blanks at its end nothing of it is missing. -/
theorem exists_showsWhole (h : totalWidth g.naturalWidths ≤ screenWidth) {i : Nat}
    {column : List String} (hcolumn : g.columns[i]? = some column) {text : String}
    (htext : text ∈ column) (hline : ∀ c ∈ text.toList, endsLine c = false ∧ c ≠ '\t') :
    ∃ w, (fittedWidths g.naturalWidths)[i]? = some w ∧ ShowsWhole w text.toList := by
  have hw : g.naturalWidths[i]? =
      some (((column.map String.toList).map naturalWidth).foldl max 0) := by
    simp [naturalWidths, hcolumn]
  have hwide : width text.toList ≤ ((column.map String.toList).map naturalWidth).foldl max 0 := by
    rw [← naturalWidth_of_forall fun c hc => (hline c hc).1]
    exact le_foldl_max (.inr (List.mem_map_of_mem (List.mem_map_of_mem htext)))
  refine ⟨_, by rw [fittedWidths_of_le h, hw], showsWhole_of_fits (fun c hc => ⟨?_, ?_⟩) hwide⟩
  · exact fun hbreak => absurd (hline c hc).1 (by simp [hbreak, endsLine])
  · exact (hline c hc).2

/-- Where all rows are as long as the heading, no text of them is left out. -/
theorem mem_texts_iff (h : ∀ row ∈ g.rows, row.length = g.header.length) {text : String} :
    text ∈ g.texts ↔ text = g.title ∨ ∃ row ∈ g.header :: g.rows, text ∈ row := by
  have hlength : ∀ row ∈ g.header :: g.rows, row.length = g.header.length :=
    List.forall_mem_cons.mpr ⟨rfl, h⟩
  rw [texts, List.mem_cons, or_congr_right]
  simp only [columns, List.mem_flatten, List.mem_map, List.mem_range]
  constructor
  · rintro ⟨column, ⟨i, hi, rfl⟩, hmem⟩
    obtain ⟨row, hrow, rfl⟩ := List.mem_map.mp hmem
    have hbound : i < row.length := (hlength row hrow).symm ▸ hi
    exact ⟨row, hrow, by simp [List.getElem?_eq_getElem hbound]⟩
  · rintro ⟨row, hrow, hmem⟩
    obtain ⟨i, hi, rfl⟩ := List.getElem_of_mem hmem
    exact ⟨_, ⟨i, hlength row hrow ▸ hi, rfl⟩,
      List.mem_map.mpr ⟨row, hrow, by simp [List.getElem?_eq_getElem hi]⟩⟩

/-- A table is written exactly if each of its texts can be shown, and then line by line. -/
theorem render_ok_iff {out : String} : g.render = .ok out ↔ ∃ columns title,
    List.Forall₂ (List.Forall₂ fun text cs => cell text = .ok cs) g.columns columns ∧
      cell g.title = .ok title ∧ out = written (lines title columns g.rows.length) := by
  unfold render
  show Except.bind (g.columns.mapM fun column => column.mapM cell) _ = _ ↔ _
  rw [Except.bind_eq_ok_iff]
  refine exists_congr fun columns => ?_
  rw [Except.mapM_ok_iff]
  simp only [Except.mapM_ok_iff]
  show _ ∧ (cell g.title).bind _ = _ ↔ _
  rw [Except.bind_eq_ok_iff, ← exists_and_left]
  refine exists_congr fun title => and_congr_right fun _ => and_congr_right fun _ => ?_
  exact ⟨fun h => (Except.ok.inj h).symm, fun h => congrArg _ h.symm⟩

/-- **A table fails** if a tag in one of its texts closes nothing. -/
theorem exists_render_error_iff : (∃ fault, g.render = .error fault) ↔
    ∃ text ∈ g.texts, ∃ fault, Markup.plain text = .error fault := by
  have hcell : ∀ text, (∃ fault, Markup.plain text = .error fault) ↔ ¬ ∃ cs, cell text = .ok cs :=
    fun text => by
      unfold cell
      cases Markup.plain text <;> simp [Except.map]
  have hrender : (∃ fault, g.render = .error fault) ↔ ¬ ∃ out, g.render = .ok out := by
    cases g.render <;> simp
  have hall : (∃ out, g.render = .ok out) ↔ ∀ text ∈ g.texts, ∃ cs, cell text = .ok cs := by
    constructor
    · rintro ⟨out, hout⟩ text htext
      obtain ⟨columns, title, hcolumns, htitle, -⟩ := render_ok_iff.mp hout
      rcases List.mem_cons.mp htext with rfl | htext
      · exact ⟨title, htitle⟩
      · obtain ⟨column, hcolumn, hmem⟩ := List.mem_flatten.mp htext
        obtain ⟨shown, -, hshown⟩ := exists_of_forall₂ hcolumns hcolumn
        obtain ⟨cs, -, hcs⟩ := exists_of_forall₂ hshown hmem
        exact ⟨cs, hcs⟩
    · intro h
      obtain ⟨title, htitle⟩ := h g.title List.mem_cons_self
      obtain ⟨columns, hcolumns⟩ := exists_forall₂ fun column hcolumn =>
        exists_forall₂ fun text htext =>
          h text (List.mem_cons_of_mem _ (List.mem_flatten.mpr ⟨column, hcolumn, htext⟩))
      exact ⟨_, render_ok_iff.mpr ⟨columns, title, hcolumns, htitle, rfl⟩⟩
  rw [hrender, hall]
  simp only [hcell, not_forall, exists_prop]

theorem render_of_forall (h : ∀ text ∈ g.texts, cell text = .ok text.toList) :
    g.render = .ok g.verbatim := by
  refine render_ok_iff.mpr ⟨_, g.title.toList, ?_, h _ List.mem_cons_self, rfl⟩
  refine List.forall₂_map_right_iff.mpr (List.forall₂_same.mpr fun column hcolumn => ?_)
  refine List.forall₂_map_right_iff.mpr (List.forall₂_same.mpr fun text htext => ?_)
  exact h text (List.mem_cons_of_mem _ (List.mem_flatten.mpr ⟨column, hcolumn, htext⟩))

end Grid

end Schemata.Display
