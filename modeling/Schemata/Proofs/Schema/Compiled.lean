import Schemata.Proofs.Outcome
import Schemata.Proofs.Schema.Names
import Schemata.Proofs.Schema.Reading

/-!
# Proofs — schemas — what compiles under the strict rules

A schema that a source gives when nothing speaks against it under the strict rules
(`Schema.Compiles`) is well formed in the ways that later steps count on (`Schema.IsStrict`): its
names are different, none of them is empty or a keyword, every relation leads to one of its models,
and its numbers are what the source writes.  `Schema.Compiles.isStrict` shows it.

Of a schema that is accepted under whichever rules (`Schema.IsAccepted`) the names of models and of
fields are in snake case, and the models have different names
(`Schema.IsAccepted.modelFaults_eq_nil`).
-/

namespace Schemata

/-- Some source compiles to the schema under the strict rules. -/
def Schema.Compiles (s : Schema) : Prop :=
  ∃ source c, (compile source true).outcome = .ok c ∧ c.accept = .ok s

/-- Some source compiles to the schema, under the strict rules or without them. -/
def Schema.IsAccepted (s : Schema) : Prop :=
  ∃ source strict c, (compile source strict).outcome = .ok c ∧ c.accept = .ok s

theorem Schema.Compiles.isAccepted {s : Schema} (h : s.Compiles) : s.IsAccepted := by
  obtain ⟨source, c, hcompile, haccept⟩ := h
  exact ⟨source, true, c, hcompile, haccept⟩

/-- A schema that keeps the strict rules and that a source can write. -/
structure Schema.IsStrict (s : Schema) : Prop where
  distinct : s.Distinct
  names : ∀ m ∈ s.models, m.name ≠ "" ∧ Scalar.ofName? m.name = none
  targets : ∀ m ∈ s.models, ∀ f ∈ m.fields, f.relation.isSome → f.typeName ∈ s.modelNames
  defaults : ∀ m ∈ s.models, ∀ f ∈ m.fields, f.IsRead

/-! ### No breach -/

/-- A name in snake case begins with a small letter or a digit. -/
theorem exists_cons_of_isSnakeCase {name : String} (h : isSnakeCase name) :
    ∃ c cs, name.toList = c :: cs ∧ isSnakeChar c := by
  -- the newline that may be left out is not all of the name
  have hchomp : ∀ c cs, chomp name.toList = c :: cs → ∃ rest, name.toList = c :: rest := by
    intro c cs hc
    unfold chomp at hc
    split at hc
    · cases hname : name.toList with
      | nil => rw [hname] at hc; cases hc
      | cons d ds =>
          rw [hname] at hc
          cases ds with
          | nil => cases hc
          | cons e es => exact ⟨_, congrArg (· :: _) (List.cons.inj hc).1⟩
    · exact ⟨cs, hc⟩
  unfold isSnakeCase at h
  rw [List.all_eq_true] at h
  cases hname : chomp name.toList with
  | nil =>
      rw [hname] at h
      exact absurd (h [] List.mem_cons_self) (by decide)
  | cons c cs =>
      rw [hname] at h
      unfold Text.splitOn at h
      split at h
      next hparts => exact absurd hparts (Text.splitOn_ne_nil _ _)
      next part parts hparts =>
          split at h
          · exact absurd (h [] List.mem_cons_self) (by decide)
          · have hpart := h _ List.mem_cons_self
            rw [Bool.and_eq_true, List.all_cons, Bool.and_eq_true] at hpart
            obtain ⟨rest, hrest⟩ := hchomp c cs hname
            exact ⟨c, rest, hrest, hpart.2.1⟩

namespace Model

/-- Fields without faults have distinct names, and none that was seen. -/
theorem nodup_of_fieldFaults {model : String} {seen : List String} {fields : List Field}
    (h : fieldFaults model seen fields = []) :
    (fields.map Field.name).Nodup ∧ ∀ f ∈ fields, f.name ∉ seen := by
  induction fields generalizing seen with
  | nil => exact ⟨List.nodup_nil, fun f hf => absurd hf List.not_mem_nil⟩
  | cons f fields ih =>
      unfold fieldFaults at h
      rw [List.append_eq_nil_iff, List.append_eq_nil_iff] at h
      obtain ⟨⟨hseen, -⟩, hrest⟩ := h
      obtain ⟨hnodup, hnot⟩ := ih hrest
      have hnew : f.name ∉ seen := fun hmem => by
        rw [if_pos (List.contains_iff_mem.mpr hmem)] at hseen
        cases hseen
      refine ⟨List.nodup_cons.mpr ⟨fun hmem => ?_, hnodup⟩, List.forall_mem_cons.mpr
        ⟨hnew, fun g hg hmem => hnot g hg (List.mem_cons_of_mem _ hmem)⟩⟩
      obtain ⟨g, hg, hname⟩ := List.mem_map.mp hmem
      exact hnot g hg (hname ▸ List.mem_cons_self)

/-- Fields without faults have names in snake case. -/
theorem isSnakeCase_of_fieldFaults {model : String} {seen : List String} {fields : List Field}
    (h : fieldFaults model seen fields = []) : ∀ f ∈ fields, isSnakeCase f.name := by
  induction fields generalizing seen with
  | nil => exact fun f hf => absurd hf List.not_mem_nil
  | cons f fields ih =>
      unfold fieldFaults at h
      rw [List.append_eq_nil_iff, List.append_eq_nil_iff] at h
      obtain ⟨⟨-, hnaming⟩, hrest⟩ := h
      refine List.forall_mem_cons.mpr ⟨?_, ih hrest⟩
      unfold Field.namingFaults at hnaming
      by_contra hcase
      rw [if_neg hcase] at hnaming
      cases hnaming

/-- Without a breach in a model, its name and those of its fields are in snake case. -/
theorem isSnakeCase_of_namingFaults {m : Model} (h : m.namingFaults = []) :
    isSnakeCase m.name ∧ ∀ f ∈ m.fields, isSnakeCase f.name := by
  unfold namingFaults at h
  obtain ⟨hname, hfields⟩ := List.append_eq_nil_iff.mp h
  refine ⟨?_, isSnakeCase_of_fieldFaults hfields⟩
  by_contra hcase
  rw [if_neg hcase] at hname
  cases hname

theorem ne_empty_of_namingFaults {m : Model} (h : m.namingFaults = []) : m.name ≠ "" := by
  intro hname
  have hcase := (isSnakeCase_of_namingFaults h).1
  rw [hname] at hcase
  exact absurd hcase (by decide)

end Model

namespace Schema

/-- Models without faults have distinct names, none that was seen, and no fault in their naming. -/
theorem nodup_of_modelFaults {seen : List String} {models : List Model}
    (h : modelFaults seen models = []) :
    (models.map Model.name).Nodup ∧ ∀ m ∈ models, m.name ∉ seen ∧ m.namingFaults = [] := by
  induction models generalizing seen with
  | nil => exact ⟨List.nodup_nil, fun m hm => absurd hm List.not_mem_nil⟩
  | cons m models ih =>
      unfold modelFaults at h
      rw [List.append_eq_nil_iff, List.append_eq_nil_iff] at h
      obtain ⟨⟨hseen, hnaming⟩, hrest⟩ := h
      obtain ⟨hnodup, hall⟩ := ih hrest
      have hnew : m.name ∉ seen := fun hmem => by
        rw [if_pos (List.contains_iff_mem.mpr hmem)] at hseen
        cases hseen
      refine ⟨List.nodup_cons.mpr ⟨fun hmem => ?_, hnodup⟩, List.forall_mem_cons.mpr
        ⟨⟨hnew, hnaming⟩, fun n hn => ⟨fun hmem => (hall n hn).1 (List.mem_cons_of_mem _ hmem),
          (hall n hn).2⟩⟩⟩
      obtain ⟨n, hn, hname⟩ := List.mem_map.mp hmem
      exact (hall n hn).1 (hname ▸ List.mem_cons_self)

/-- Where no reference is at fault, each relation leads to a declared model. -/
theorem mem_of_referenceFaults {m : Model} {declared : List String}
    (h : m.referenceFaults declared = []) {f : Field} (hf : f ∈ m.fields)
    (hrel : f.relation.isSome) : f.typeName ∈ declared := by
  unfold Model.referenceFaults at h
  obtain ⟨hrels, -⟩ := List.append_eq_nil_iff.mp h
  have hnone := List.flatMap_eq_nil_iff.mp hrels f hf
  obtain ⟨r, hr⟩ := Option.isSome_iff_exists.mp hrel
  unfold Model.relationFaults at hnone
  rw [hr] at hnone
  obtain ⟨htarget, -⟩ := List.append_eq_nil_iff.mp hnone
  by_contra hnot
  rw [if_neg (fun hc => hnot (List.contains_iff_mem.mp hc))] at htarget
  cases htarget

/-- No word that is an identifier names a type. -/
theorem ofName?_of_ofWord {name : String} (h : TokenKind.ofWord name = .identifier) :
    Scalar.ofName? name = none := by
  cases hs : Scalar.ofName? name with
  | none => rfl
  | some s =>
      have hname : s.name = name := by simpa using List.find?_some hs
      rw [← hname] at h
      cases s <;> exact absurd h (by decide)

/-- A schema without a breach, of models that a source can write. -/
theorem isStrict_of_violations {s : Schema} (h : s.violations true = [])
    (hread : ∀ m ∈ s.models, m.IsRead) : s.IsStrict := by
  unfold violations at h
  obtain ⟨hmodels, hrefs⟩ := List.append_eq_nil_iff.mp h
  obtain ⟨hnodup, hall⟩ := nodup_of_modelFaults hmodels
  refine ⟨⟨hnodup, fun m hm => ?_⟩, fun m hm => ⟨?_, ?_⟩, fun m hm f hf hrel => ?_,
    fun m hm => (hread m hm).fields⟩
  · obtain ⟨-, hfields⟩ := List.append_eq_nil_iff.mp (hall m hm).2
    exact (Model.nodup_of_fieldFaults hfields).1
  · exact Model.ne_empty_of_namingFaults (hall m hm).2
  · exact ofName?_of_ofWord (hread m hm).name
  · exact mem_of_referenceFaults (List.flatMap_eq_nil_iff.mp hrefs m hm) hf hrel

end Schema

/-! ### A compiled source -/

/-- A list of proper tokens has a proper end and a proper body. -/
theorem Tokens.isProper_ofList? {ts : List Token} {tokens : Tokens}
    (h : Tokens.ofList? ts = some tokens) (hts : ∀ t ∈ ts, t.IsProper) :
    tokens.stop.IsProper ∧ ∀ t ∈ tokens.body, t.IsProper := by
  obtain ⟨last, -, rfl⟩ := Option.map_eq_some_iff.mp h
  refine ⟨fun hkind => ?_, fun t ht => hts t (List.takeWhile_sublist _ |>.subset ht)⟩
  cases hfind : ts.find? fun t => t.kind == .endOfInput with
  | none => rw [hfind] at hkind; cases hkind
  | some t =>
      have : t.kind = .endOfInput := by simpa using List.find?_some hfind
      rw [hfind, Option.getD_some, this] at hkind
      cases hkind

/-- A schema read from proper tokens is one of names and literals that were read. -/
theorem Schema.isRead_of_ofTokens {ts : List Token} (hts : ∀ t ∈ ts, t.IsProper) {p : Parsed}
    {s : Schema} (h : Schema.ofTokens ts = .ok p) (hs : p.schema = some s) :
    ∀ m ∈ s.models, m.IsRead := by
  unfold Schema.ofTokens at h
  cases htokens : Tokens.ofList? ts with
  | none =>
      rw [htokens] at h
      cases h
      cases hs
  | some tokens =>
      rw [htokens] at h
      obtain ⟨hstop, hbody⟩ := Tokens.isProper_ofList? htokens hts
      dsimp only at h
      cases hmodels : Reading.models tokens.stop tokens.body with
      | error e => rw [hmodels] at h; cases h
      | ok found =>
          rw [hmodels] at h
          cases h
          cases hs
          exact Reading.models_isRead hstop hbody hmodels

/-- What is accepted was read without faults and has no breach. -/
theorem Compilation.accept_ok_iff {c : Compilation} {s : Schema} :
    c.accept = .ok s ↔
      c.schema = some s ∧ 0 < c.tokenCount ∧ c.syntaxFaults = [] ∧ c.semanticFaults = [] := by
  unfold accept isOk findings
  cases c.schema with
  | none => simp
  | some t =>
      simp only [Option.isSome_some, Bool.true_and, Bool.and_eq_true, decide_eq_true_eq,
        List.isEmpty_iff, List.append_eq_nil_iff, List.map_eq_nil_iff, Option.some.injEq]
      split
      next h =>
          constructor
          · intro ht
            cases ht
            exact ⟨rfl, h⟩
          · rintro ⟨rfl, -⟩
            rfl
      next h =>
          constructor
          · intro ht
            cases ht
          · rintro ⟨-, ht⟩
            exact absurd ht h

/-! ### Sources that are computed with -/

/-- The characters of a text. -/
theorem Text.toList_of_eq {text : String} {cs : List Char} (h : text = String.ofList cs) :
    text.toList = cs := by
  rw [h, String.toList_ofList]

/-- The characters of a text that is put together. -/
theorem Text.toList_append_of_eq {text more : String} {cs ds : List Char} (h : text.toList = cs)
    (hmore : more = String.ofList ds) : (text ++ more).toList = cs ++ ds := by
  rw [String.toList_append, h, toList_of_eq hmore]

/-- The tokens that characters are cut into.  To compute with characters that are given one by one
is quick; to take them from a text is not. -/
def Lexeme.tokens (cs : List Char) : List Token :=
  (placed .start (split false cs)).filterMap (fun (p, x) => x.token? p) ++
    [⟨.endOfInput, "", Position.start.after cs⟩]

/-- The schema that characters are compiled to under the strict rules, if they are accepted. -/
def Schema.ofCharacters? (cs : List Char) : Option Schema :=
  match Schema.ofTokens (Lexeme.tokens cs) with
  | .ok ⟨some s, []⟩ => if (s.violations true).isEmpty then some s else none
  | _ => none

/-- What the characters of a source are accepted as, its compilation is accepted as. -/
theorem Schema.accepted_of_ofCharacters? {source : String} {cs : List Char} {s : Schema}
    (hsource : source.toList = cs) (h : ofCharacters? cs = some s) :
    ∃ c, (compile source true).outcome = .ok c ∧ c.accept = .ok s := by
  subst hsource
  unfold ofCharacters? at h
  split at h
  next t hread =>
    obtain ⟨hclean, hs⟩ := Option.ite_none_right_eq_some.mp h
    cases hs
    change Schema.ofTokens (Token.scan source).tokens = _ at hread
    have hparsed : (Journal.ofExcept ((Schema.ofTokens (Token.scan source).tokens).mapError
        SourceError.numeral)).outcome = .ok ⟨some s, []⟩ := by
      rw [hread]
      rfl
    refine ⟨_, Journal.bind_ok_iff.mpr ⟨_, rfl, Journal.bind_ok_iff.mpr ⟨_, hparsed, rfl⟩⟩, ?_⟩
    rw [Compilation.accept_ok_iff]
    refine ⟨rfl, ?_, rfl, List.isEmpty_iff.mp hclean⟩
    exact List.length_pos_of_mem (List.mem_append_right _ List.mem_cons_self)
  next => cases h

/-- What a source is compiled to under the strict rules, if its characters are accepted. -/
theorem Schema.Compiles.of_source {source : String} {cs : List Char} {s : Schema}
    (hsource : source.toList = cs) (h : ofCharacters? cs = some s) : s.Compiles :=
  ⟨source, Schema.accepted_of_ofCharacters? hsource h⟩

/-! ### An accepted source -/

/-- An accepted source is read without a fault, and what is read has no breach. -/
theorem Compilation.read_of_accept {source : String} {strict : Bool} {c : Compilation}
    {s : Schema} (hcompile : (compile source strict).outcome = .ok c) (haccept : c.accept = .ok s) :
    Schema.ofTokens (Token.scan source).tokens = .ok ⟨some s, []⟩ ∧ s.violations strict = [] := by
  obtain ⟨hschema, -, hsyntax, hsemantic⟩ := accept_ok_iff.mp haccept
  unfold compile at hcompile
  obtain ⟨scan, hscan, hcompile⟩ := Journal.bind_ok_iff.mp hcompile
  cases hscan
  obtain ⟨⟨schema, faults⟩, hparsed, hcompile⟩ := Journal.bind_ok_iff.mp hcompile
  rw [Journal.ofExcept_ok_iff, Except.mapError_eq_ok_iff] at hparsed
  dsimp only at hcompile
  cases schema with
  | none =>
      cases hcompile
      cases hschema
  | some t =>
      cases faults with
      | nil =>
          cases hcompile
          cases hschema
          exact ⟨hparsed, hsemantic⟩
      | cons fault faults =>
          cases hcompile
          cases hsyntax

/-- An accepted source has no breach, and its models are written in it. -/
theorem Compilation.violations_eq_nil {source : String} {strict : Bool} {c : Compilation}
    {s : Schema} (hcompile : (compile source strict).outcome = .ok c) (haccept : c.accept = .ok s) :
    s.violations strict = [] ∧ ∀ m ∈ s.models, m.IsRead := by
  obtain ⟨hread, hviolations⟩ := read_of_accept hcompile haccept
  exact ⟨hviolations, Schema.isRead_of_ofTokens (fun t ht => Lexeme.isProper_scan ht) hread rfl⟩

/-- **What compiles** under the strict rules is well formed. -/
theorem Schema.Compiles.isStrict {s : Schema} (h : s.Compiles) : s.IsStrict := by
  obtain ⟨source, c, hcompile, haccept⟩ := h
  obtain ⟨hviolations, hread⟩ := Compilation.violations_eq_nil hcompile haccept
  exact isStrict_of_violations hviolations hread

/-- A source with a key that counts up, a string with a quote in it, a number and a join table. -/
def taggedUsersSource : String :=
  "model user \x7b\n  id int @primary_key @default(autoincrement())\n" ++
    "  name string @default(\"it's\")\n  rate float @default(1.5)\n  tags tag[] @many_to_many\n" ++
    "\x7d\nmodel tag \x7b\n  id int @primary_key\n\x7d\n"

/-- The schema of that source. -/
def taggedUsers : Schema :=
  ⟨[{ name := "user"
      fields :=
        [{ name := "id", typeName := "int", isPrimaryKey := true
           default := some (.call .autoincrement), position := ⟨2, 3⟩ },
         { name := "name", typeName := "string", default := some (.literal (.text "it's"))
           position := ⟨3, 3⟩ },
         { name := "rate", typeName := "float"
           default := some (.literal (.float (.ofDecimal false 15 (-1)))), position := ⟨4, 3⟩ },
         { name := "tags", typeName := "tag", isArray := true
           relation := some ⟨.manyToMany, none⟩, position := ⟨5, 3⟩ }]
      position := ⟨1, 1⟩ },
    { name := "tag"
      fields := [{ name := "id", typeName := "int", isPrimaryKey := true, position := ⟨8, 3⟩ }]
      position := ⟨7, 1⟩ }]⟩

theorem taggedUsers_compiles : taggedUsers.Compiles :=
  @Schema.Compiles.of_source taggedUsersSource _ taggedUsers
    (Text.toList_append_of_eq (Text.toList_append_of_eq (Text.toList_of_eq rfl) rfl) rfl)
    (by decide +kernel)

/-- **What is accepted** has no breach at its models, whatever the rules on references. -/
theorem Schema.IsAccepted.modelFaults_eq_nil {s : Schema} (h : s.IsAccepted) :
    modelFaults [] s.models = [] := by
  obtain ⟨source, strict, c, hcompile, haccept⟩ := h
  obtain ⟨hviolations, -⟩ := Compilation.violations_eq_nil hcompile haccept
  exact (List.append_eq_nil_iff.mp hviolations).1

theorem Schema.IsAccepted.modelNames_nodup {s : Schema} (h : s.IsAccepted) : s.modelNames.Nodup :=
  (nodup_of_modelFaults h.modelFaults_eq_nil).1

theorem Schema.IsAccepted.isSnakeCase {s : Schema} (h : s.IsAccepted) {m : Model}
    (hm : m ∈ s.models) : Schemata.isSnakeCase m.name ∧ ∀ f ∈ m.fields, Schemata.isSnakeCase f.name :=
  Model.isSnakeCase_of_namingFaults ((nodup_of_modelFaults h.modelFaults_eq_nil).2 m hm).2

end Schemata
