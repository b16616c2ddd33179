import Schemata.Proofs.TypeModule.ClassNames

/-!
# Proofs — type modules — what a module binds

The text of a module, read line by line: the names that are bound at the top level (`bindings`), and
the entries of its table, each with the name that it refers to (`tabled`).

* `bindings_text`: where the blocks are proper, the names of the blocks are bound, in their order,
  between what is imported and the two names at the end.
* `tabled_text`: the table has the models, each with the name of its class.

Lines that begin with a blank belong to what stands before them, so the keys of a block bind
nothing.
-/

namespace Schemata

open Text

/-! ### Lines -/

/-- What is read of a text, line by line. -/
def readLines {α : Type} (read : List Char → List α) (text : String) : List α :=
  (splitOn '\n' text.toList).flatMap read

section

variable {α : Type} (read : List Char → List α)

theorem readLines_append (a b : String) :
    readLines read (a ++ "\n" ++ b) = readLines read a ++ readLines read b := by
  have hbreak : "\n".toList = ['\n'] := rfl
  unfold readLines
  rw [String.toList_append, String.toList_append, hbreak, List.append_assoc,
    List.singleton_append, splitOn_append_cons, List.flatMap_append]

theorem readLines_of_isOneLine {text : String} (h : IsOneLine text) :
    readLines read text = read text.toList := by
  rw [readLines, splitOn_of_not_mem h, List.flatMap_singleton]

theorem readLines_intercalate {text : String} {texts : List String} :
    readLines read ("\n".intercalate (text :: texts)) =
      (text :: texts).flatMap (readLines read) := by
  induction texts generalizing text with
  | nil => rw [String.intercalate_singleton, List.flatMap_singleton]
  | cons t texts ih =>
      rw [String.intercalate_cons_cons, readLines_append, ih]
      rfl

/-- Texts that are written out are read by their characters: a text is computed from them, but they
are not quickly computed from a text. -/
theorem flatMap_readLines_of_eq {texts : List String} (lines : List (List Char))
    (h : texts = lines.map String.ofList) :
    texts.flatMap (readLines read) = lines.flatMap fun cs => (splitOn '\n' cs).flatMap read := by
  subst h
  rw [List.flatMap_map]
  exact List.flatMap_congr fun cs _ => by rw [readLines, String.toList_ofList]

end

theorem isOneLine_append_iff {a b : String} :
    IsOneLine (a ++ b) ↔ IsOneLine a ∧ IsOneLine b := by
  unfold IsOneLine
  rw [String.toList_append, List.mem_append, not_or]

/-- Texts of one line with something of one line between them are one line. -/
theorem isOneLine_intercalate {sep : String} {texts : List String} (hsep : IsOneLine sep)
    (h : ∀ t ∈ texts, IsOneLine t) : IsOneLine (sep.intercalate texts) := by
  induction texts with
  | nil => exact List.not_mem_nil
  | cons t texts ih =>
      obtain ⟨ht, htexts⟩ := List.forall_mem_cons.mp h
      cases texts with
      | nil => rwa [String.intercalate_singleton]
      | cons u texts =>
          rw [String.intercalate_cons_cons]
          exact isOneLine_append_iff.mpr ⟨isOneLine_append_iff.mpr ⟨ht, hsep⟩, ih htexts⟩

/-! ### What a line binds -/

/-- The name that a text begins with. -/
def leadingName (cs : List Char) : String := String.ofList (cs.takeWhile Shape.isWordPart)

/-- The names that a line binds: those that it imports, that of a class, or that of what it gives a
value to. -/
def boundBy (line : List Char) : List String :=
  match (splitOn ' ' line).map String.ofList with
  | "from" :: _ :: "import" :: names => names.map fun name => leadingName name.toList
  | "class" :: name :: _ => [leadingName name.toList]
  | _ => if leadingName line = "" then [] else [leadingName line]

/-- The names that are bound at the top level of a module. -/
def bindings (text : String) : List String := readLines boundBy text

/-- The entry of a table on a line, which is a key in double quotes and a name. -/
def tabledBy (line : List Char) : List (String × String) :=
  match line with
  | ' ' :: ' ' :: ' ' :: ' ' :: '"' :: cs =>
    [(String.ofList (cs.takeWhile (· != '"')), leadingName ((cs.dropWhile (· != '"')).drop 3))]
  | _ => []

/-- The table of a module: keys, and the names that stand for their values. -/
def tabled (text : String) : List (String × String) := readLines tabledBy text

/-- A name that begins with a capital. -/
structure IsClassName (name : String) : Prop where
  plain : IsPlainName name
  capital : ∃ c cs, name.toList = c :: cs ∧ c.isUpper = true

theorem IsClassName.className {name : String} {c : Char} {cs : List Char} (h : IsPlainName name)
    (hname : name.toList = c :: cs) (hlow : c.isLower = true) : IsClassName (className name) := by
  refine ⟨h.className, c.toUpper, camel false cs, ?_, isUpper_toUpper_iff.mpr (.inr hlow)⟩
  have hunderscore : c ≠ '_' := by
    rintro rfl
    exact absurd hlow (by decide)
  rw [toList_className h, hname, camel, if_neg hunderscore, if_pos rfl]

theorem leadingName_append {name : String} (h : IsPlainName name) {c : Char} (rest : List Char)
    (hc : Shape.isWordPart c = false) : leadingName (name.toList ++ c :: rest) = name := by
  rw [leadingName, List.takeWhile_append_of_pos h, List.takeWhile_cons_of_neg (by simp [hc]),
    List.append_nil, String.ofList_toList]

/-- A line that begins with a name and a blank, where the name is no keyword of the two. -/
theorem boundBy_append {name : String} (rest : List Char) (hblank : ' ' ∉ name.toList)
    (hfrom : name ≠ "from") (hclass : name ≠ "class") :
    boundBy (name.toList ++ ' ' :: rest) =
      if leadingName (name.toList ++ ' ' :: rest) = "" then []
      else [leadingName (name.toList ++ ' ' :: rest)] := by
  unfold boundBy
  rw [splitOn_append rest hblank, List.map_cons, String.ofList_toList]
  split
  next heq => exact absurd (List.cons.inj heq).1 hfrom
  next heq => exact absurd (List.cons.inj heq).1 hclass
  next => rfl

/-- What stands inside a block binds nothing. -/
theorem boundBy_indented (cs : List Char) : boundBy (' ' :: cs) = [] :=
  @boundBy_append "" cs List.not_mem_nil (by decide) (by decide)

section

variable {name : String}

/-- The name of a class begins with a capital. -/
theorem IsClassName.ne_of_head (h : IsClassName name) {word : String} {c : Char} {cs : List Char}
    (hword : word.toList = c :: cs) (hc : c.isUpper = false) : name ≠ word := by
  rintro rfl
  obtain ⟨d, ds, hname, hd⟩ := h.capital
  rw [hname] at hword
  cases hword
  rw [hd] at hc
  cases hc

/-- A name before a sign is given a value. -/
theorem boundBy_assigned (h : IsClassName name) (rest : List Char) :
    boundBy (name.toList ++ ' ' :: rest) = [name] := by
  have hblank : ' ' ∉ name.toList := fun hmem => absurd (h.plain _ hmem) (by decide)
  obtain ⟨c, cs, hname, -⟩ := h.capital
  have hne : name ≠ "" := by
    rintro rfl
    cases hname
  rw [boundBy_append rest hblank (h.ne_of_head rfl (by decide)) (h.ne_of_head rfl (by decide)),
    leadingName_append h.plain rest (by decide), if_neg hne]

/-- The head of a class binds its name. -/
theorem boundBy_class (h : IsClassName name) :
    boundBy ("class " ++ name ++ "(TypedDict):").toList = [name] := by
  have hblank : ' ' ∉ (name ++ "(TypedDict):").toList := by
    rw [String.toList_append, List.mem_append, not_or]
    exact ⟨fun hmem => absurd (h.plain _ hmem) (by decide), by decide⟩
  have hline : ("class " ++ name ++ "(TypedDict):").toList =
      "class".toList ++ ' ' :: (name ++ "(TypedDict):").toList := by
    rw [String.append_assoc, String.toList_append]
    rfl
  have hsign : "(TypedDict):".toList = '(' :: "TypedDict):".toList := rfl
  unfold boundBy
  rw [hline, splitOn_append _ (by decide), splitOn_of_not_mem hblank, List.map_cons,
    List.map_singleton, String.ofList_toList, String.ofList_toList]
  change [leadingName (name ++ "(TypedDict):").toList] = [name]
  rw [String.toList_append, hsign, leadingName_append h.plain _ (by decide)]

end

/-- An indented line that begins with no quote enters nothing. -/
theorem tabledBy_indented {cs : List Char} (h : cs.head? ≠ some '"') :
    tabledBy (' ' :: ' ' :: ' ' :: ' ' :: cs) = [] := by
  unfold tabledBy
  split
  next heq =>
      cases heq
      exact absurd rfl h
  next => rfl

theorem tabledBy_of_head {c : Char} (cs : List Char) (h : c ≠ ' ') : tabledBy (c :: cs) = [] := by
  unfold tabledBy
  split
  next heq => exact absurd (List.cons.inj heq).1 h
  next => rfl

/-- An entry of the table is read as its key and its name. -/
theorem tabledBy_entry {key name : String} (hkey : IsPlainName key) (hname : IsPlainName name) :
    tabledBy ("    " ++ inQuotes key ++ ": " ++ name ++ ",").toList = [(key, name)] := by
  have hline : ("    " ++ inQuotes key ++ ": " ++ name ++ ",").toList =
      ' ' :: ' ' :: ' ' :: ' ' :: '"' ::
        (key.toList ++ '"' :: ':' :: ' ' :: (name.toList ++ ',' :: [])) := by
    simp [inQuotes]
  have hquote : ∀ c ∈ key.toList, (c != '"') = true := fun c hc => by
    rw [bne_iff_ne]
    rintro rfl
    exact absurd (hkey _ hc) (by decide)
  rw [hline, tabledBy, List.takeWhile_append_of_pos hquote, List.dropWhile_append_of_pos hquote,
    List.takeWhile_cons_of_neg (by decide), List.dropWhile_cons_of_neg (by decide),
    List.append_nil, String.ofList_toList]
  change [(key, leadingName (name.toList ++ ',' :: []))] = [(key, name)]
  rw [leadingName_append hname [] (by decide)]

/-! ### Blocks -/

theorem isOneLine_inQuotes_iff {text : String} : IsOneLine (inQuotes text) ↔ IsOneLine text := by
  have hquote : IsOneLine "\"" := by decide
  unfold inQuotes
  rw [isOneLine_append_iff, isOneLine_append_iff, and_iff_right hquote, and_iff_left hquote]

/-- A reference to a type is one line if the type is. -/
theorem isOneLine_forwardReference {type : String} (h : IsOneLine type) :
    IsOneLine (forwardReference type) := by
  unfold forwardReference
  dsimp only
  split
  · refine isOneLine_append_iff.mpr
      ⟨isOneLine_append_iff.mpr ⟨by decide, isOneLine_inQuotes_iff.mpr ?_⟩, by decide⟩
    unfold IsOneLine
    rw [String.toList_ofList]
    exact fun hmem => h (List.mem_of_mem_drop (List.mem_of_mem_dropLast hmem))
  · exact isOneLine_inQuotes_iff.mpr h

/-- A key of a class stands inside it, and is not in quotes. -/
theorem exists_indented {key : String} (hkey : IsPlainName key) (type : String) :
    ∃ cs, ("    " ++ key ++ ": " ++ type).toList = ' ' :: ' ' :: ' ' :: ' ' :: cs ∧
      cs.head? ≠ some '"' := by
  refine ⟨key.toList ++ (": " ++ type).toList, by simp, fun hhead => ?_⟩
  cases hchars : key.toList with
  | nil =>
      rw [hchars, String.toList_append] at hhead
      exact absurd (Option.some.inj hhead) (by decide)
  | cons c cs =>
      rw [hchars] at hhead
      obtain rfl : c = '"' := Option.some.inj hhead
      exact absurd (hkey '"' (by simp [hchars])) (by decide)

namespace TypeBlock

/-- The block is named like a class, and its keys and types can stand on a line. -/
structure IsProper (b : TypeBlock) : Prop where
  name : IsClassName b.name
  keys : ∀ e ∈ b.entries, IsPlainName e.1
  types : ∀ e ∈ b.entries, IsOneLine e.2.text

variable {b : TypeBlock}

/-- A block is read at its first line, if nothing is to be read inside blocks. -/
theorem readLines_text {α : Type} {read : List Char → List α}
    (hinside : ∀ cs, cs.head? ≠ some '"' → read (' ' :: ' ' :: ' ' :: ' ' :: cs) = [])
    (h : b.IsProper) :
    readLines read b.text = read ("class " ++ b.name ++ "(TypedDict):").toList ∨
      ∃ rest, readLines read b.text = read (b.name.toList ++ ' ' :: rest) := by
  have hname := h.name.plain.isOneLine
  unfold TypeBlock.text
  split
  next hplain =>
      left
      have hfirst : IsOneLine ("class " ++ b.name ++ "(TypedDict):") :=
        isOneLine_append_iff.mpr ⟨isOneLine_append_iff.mpr ⟨by decide, hname⟩, by decide⟩
      dsimp only
      rw [readLines_intercalate, List.flatMap_cons, readLines_of_isOneLine read hfirst]
      refine (congrArg _ (List.flatMap_eq_nil_iff.mpr fun line hline => ?_)).trans
        (List.append_nil _)
      split at hline
      · rcases List.mem_singleton.mp hline with rfl
        rw [readLines_of_isOneLine read (by decide)]
        exact hinside _ (by decide)
      · obtain ⟨⟨key, type⟩, he, rfl⟩ := List.mem_map.mp hline
        have hkey : IsPlainName key := h.keys _ he
        have hline : IsOneLine ("    " ++ key ++ ": " ++ type.text) := isOneLine_append_iff.mpr
          ⟨isOneLine_append_iff.mpr ⟨isOneLine_append_iff.mpr ⟨by decide, hkey.isOneLine⟩,
            by decide⟩, h.types _ he⟩
        obtain ⟨cs, hcs, hhead⟩ := exists_indented hkey type.text
        exact (readLines_of_isOneLine read hline).trans (hcs ▸ hinside cs hhead)
  next hquoted =>
      right
      dsimp only
      generalize hbody : (b.entries.map fun x => inQuotes x.1 ++ ": " ++
        forwardReference x.2.text) = body
      have hentries : IsOneLine (", ".intercalate body) := by
        refine isOneLine_intercalate (by decide) fun text htext => ?_
        subst hbody
        obtain ⟨e, he, rfl⟩ := List.mem_map.mp htext
        exact isOneLine_append_iff.mpr
          ⟨isOneLine_append_iff.mpr
            ⟨isOneLine_inQuotes_iff.mpr (h.keys e he).isOneLine, by decide⟩,
            isOneLine_forwardReference (h.types e he)⟩
      have hline : IsOneLine (b.name ++ " = TypedDict(" ++ inQuotes b.name ++ ", \x7b" ++
          ", ".intercalate body ++ "\x7d)") := by
        simp only [isOneLine_append_iff, isOneLine_inQuotes_iff]
        exact ⟨⟨⟨⟨⟨hname, by decide⟩, hname⟩, by decide⟩, hentries⟩, by decide⟩
      refine ⟨("= TypedDict(" ++ inQuotes b.name ++ ", \x7b" ++ ", ".intercalate body ++
        "\x7d)").toList, ?_⟩
      rw [readLines_of_isOneLine read hline]
      exact congrArg read (by simp)

/-- A block binds its name. -/
theorem bindings_text (h : b.IsProper) : bindings b.text = [b.name] := by
  rcases readLines_text (fun cs _ => boundBy_indented _) h with heq | ⟨rest, heq⟩
  · exact heq.trans (boundBy_class h.name)
  · exact heq.trans (boundBy_assigned h.name rest)

/-- A block enters nothing in the table. -/
theorem tabled_text (h : b.IsProper) : tabled b.text = [] := by
  rcases readLines_text (fun cs => tabledBy_indented) h with heq | ⟨rest, heq⟩
  · rw [String.append_assoc, String.toList_append] at heq
    exact heq.trans (tabledBy_of_head _ (by decide))
  · obtain ⟨c, cs, hname, hc⟩ := h.name.capital
    rw [hname] at heq
    refine heq.trans (tabledBy_of_head _ ?_)
    rintro rfl
    exact absurd hc (by decide)

end TypeBlock

/-! ### Modules -/

namespace Schema

variable {s : Schema}

/-- A module is read at its head, its blocks and its table, if nothing is to be read on empty
lines. -/
theorem readLines_typeModuleText {α : Type} {read : List Char → List α} (hempty : read [] = []) :
    readLines read s.typeModuleText = moduleHeader.flatMap (readLines read) ++
      s.typeBlocks.flatMap (fun b => readLines read b.text) ++
      (moduleIndex s).flatMap (readLines read) := by
  have hnil : readLines read "" = [] := (readLines_of_isOneLine read (by decide)).trans hempty
  have hend : ∀ text : String, readLines read (text ++ "\n") = readLines read text := fun text => by
    rw [← String.append_empty (s := text ++ "\n"), readLines_append, hnil, List.append_nil]
  unfold typeModuleText
  dsimp only
  rw [hend, moduleHeader, List.cons_append, List.cons_append, readLines_intercalate,
    ← List.cons_append, ← List.cons_append, List.flatMap_append, List.flatMap_append,
    List.flatMap_assoc]
  congr 2
  refine List.flatMap_congr fun b _ => ?_
  rw [List.flatMap_cons, List.flatMap_cons, List.flatMap_cons, hnil]
  simp

/-- The line of the type of all names of models. -/
def namesLine (s : Schema) : String :=
  if s.models.isEmpty then "ModelName = str"
  else "ModelName = Literal[" ++ ", ".intercalate (s.modelNames.map inQuotes) ++ "]"

/-- The line of all names is one line, and begins with its own. -/
theorem exists_namesLine (h : ∀ n ∈ s.modelNames, IsPlainName n) : IsOneLine s.namesLine ∧
    ∃ rest, s.namesLine.toList = "ModelName".toList ++ ' ' :: rest := by
  unfold namesLine
  split
  · exact ⟨by decide, _, rfl⟩
  · have hnames : IsOneLine (", ".intercalate (s.modelNames.map inQuotes)) := by
      refine isOneLine_intercalate (by decide) fun text htext => ?_
      obtain ⟨n, hn, rfl⟩ := List.mem_map.mp htext
      exact isOneLine_inQuotes_iff.mpr (h n hn).isOneLine
    refine ⟨?_, ("= Literal[" ++ ", ".intercalate (s.modelNames.map inQuotes) ++ "]").toList,
      by simp⟩
    rw [isOneLine_append_iff, isOneLine_append_iff]
    exact ⟨⟨by decide, hnames⟩, by decide⟩

/-- The line of a model in the table. -/
def tableLine (name : String) : String := "    " ++ inQuotes name ++ ": " ++ className name ++ ","

theorem isOneLine_tableLine {name : String} (h : IsPlainName name) :
    IsOneLine (tableLine name) := by
  unfold tableLine
  simp only [isOneLine_append_iff, isOneLine_inQuotes_iff]
  exact ⟨⟨⟨⟨by decide, h.isOneLine⟩, by decide⟩, h.className.isOneLine⟩, by decide⟩

/-- The end of a module is read at the names of the models and at the lines of the table. -/
theorem readLines_moduleIndex {α : Type} {read : List Char → List α} (hempty : read [] = [])
    (hclose : read ['}'] = []) (h : ∀ n ∈ s.modelNames, IsPlainName n) :
    (moduleIndex s).flatMap (readLines read) = read s.namesLine.toList ++
      read "MODELS: dict[str, type] = \x7b".toList ++
      s.modelNames.flatMap fun n => read (tableLine n).toList := by
  have hindex : moduleIndex s = ["", s.namesLine, "", "MODELS: dict[str, type] = \x7b"] ++
      s.modelNames.map tableLine ++ ["\x7d"] := rfl
  have hnil : readLines read "" = [] := (readLines_of_isOneLine read (by decide)).trans hempty
  have hend : readLines read "\x7d" = [] := (readLines_of_isOneLine read (by decide)).trans hclose
  have htable : s.modelNames.flatMap (fun n => readLines read (tableLine n)) =
      s.modelNames.flatMap fun n => read (tableLine n).toList :=
    List.flatMap_congr fun n hn => readLines_of_isOneLine read (isOneLine_tableLine (h n hn))
  rw [hindex, List.flatMap_append, List.flatMap_append, List.flatMap_map, htable]
  simp only [List.flatMap_cons, List.flatMap_nil, hnil, hend, List.nil_append, List.append_nil,
    readLines_of_isOneLine read (exists_namesLine h).1]
  rw [readLines_of_isOneLine read (by decide)]

/-- The names that every module imports. -/
def importedNames : List String := ["annotations", "Any", "Literal", "NotRequired", "TypedDict"]

/-- The names that every module ends with. -/
def indexNames : List String := ["ModelName", "MODELS"]

/-- **What a module binds**: what it imports, its blocks, and the two names at its end. -/
theorem bindings_typeModuleText (hblocks : ∀ b ∈ s.typeBlocks, b.IsProper)
    (hnames : ∀ n ∈ s.modelNames, IsPlainName n) :
    bindings s.typeModuleText = importedNames ++ s.typeBlocks.map TypeBlock.name ++ indexNames := by
  have himports : moduleHeader.flatMap (readLines boundBy) = importedNames :=
    (flatMap_readLines_of_eq boundBy [_, _, _, _, _, _, _] rfl).trans (by decide +kernel)
  have hbound : s.typeBlocks.flatMap (fun b => readLines boundBy b.text) =
      s.typeBlocks.map TypeBlock.name :=
    (List.flatMap_congr fun b hb => TypeBlock.bindings_text (hblocks b hb)).trans
      List.map_eq_flatMap.symm
  obtain ⟨-, rest, hline⟩ := exists_namesLine hnames
  have hclass : IsClassName "ModelName" := ⟨by decide, 'M', _, rfl, rfl⟩
  have htable : s.modelNames.flatMap (fun n => boundBy (tableLine n).toList) = [] := by
    refine List.flatMap_eq_nil_iff.mpr fun n _ => ?_
    unfold tableLine
    rw [String.append_assoc, String.append_assoc, String.append_assoc, String.toList_append]
    exact boundBy_indented _
  have hmodels : boundBy "MODELS: dict[str, type] = \x7b".toList = ["MODELS"] := by decide +kernel
  unfold bindings
  rw [readLines_typeModuleText rfl, readLines_moduleIndex rfl (by decide) hnames, himports, hbound,
    hline, boundBy_assigned hclass, htable, hmodels, List.append_nil]
  rfl

/-- **The table of a module** has the models, each with the name of its class. -/
theorem tabled_typeModuleText (hblocks : ∀ b ∈ s.typeBlocks, b.IsProper)
    (hnames : ∀ n ∈ s.modelNames, IsPlainName n) :
    tabled s.typeModuleText = s.modelNames.map fun n => (n, className n) := by
  have himports : moduleHeader.flatMap (readLines tabledBy) = [] :=
    (flatMap_readLines_of_eq tabledBy [_, _, _, _, _, _, _] rfl).trans (by decide +kernel)
  have hbound : s.typeBlocks.flatMap (fun b => readLines tabledBy b.text) = [] :=
    List.flatMap_eq_nil_iff.mpr fun b hb => TypeBlock.tabled_text (hblocks b hb)
  obtain ⟨-, rest, hline⟩ := exists_namesLine hnames
  have hnames' : tabledBy s.namesLine.toList = [] := by
    rw [hline]
    exact tabledBy_of_head _ (by decide)
  have htable : s.modelNames.flatMap (fun n => tabledBy (tableLine n).toList) =
      s.modelNames.map fun n => (n, className n) :=
    (List.flatMap_congr fun n hn => tabledBy_entry (hnames n hn) (hnames n hn).className).trans
      List.map_eq_flatMap.symm
  have hmodels : tabledBy "MODELS: dict[str, type] = \x7b".toList = [] := by decide +kernel
  unfold tabled
  rw [readLines_typeModuleText rfl, readLines_moduleIndex rfl (by decide) hnames, himports, hbound,
    hnames', htable, hmodels]
  rfl

end Schema

end Schemata
