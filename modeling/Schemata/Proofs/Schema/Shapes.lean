import Schemata.Proofs.Schema.Accepted
import Schemata.Proofs.Shape.Nesting
import Schemata.Proofs.Token.Order

/-!
# Proofs — schemas — the shapes of a source

A raw block of a source is one token, in braces that match, at the place where its text stands
(`Token.standsIn_of_mem_scan`).  The shape of a field is read from such a token, and the shapes
inside it are parts of its text.

* `Compilation.shapes_readAlone` — so each shape of an accepted source, at any depth, stands in the
  source at its own place, and is read from its own text.
-/

namespace Schemata

open Grammar

/-! ### Raw blocks -/

namespace Lexeme

/-- A raw block begins with a brace and goes on up to the one that closes it. -/
theorem blockTail_of_first {armed : Bool} {c : Char} {cs : List Char} {value : String}
    (h : (first armed c cs).kind = .token .rawObject value) :
    ∃ tail, blockTail 1 cs = some tail ∧ value = String.ofList ('{' :: tail) := by
  revert h
  fun_cases first armed c cs with
  | case1 => rintro ⟨⟩
  | case2 =>
      fun_cases slash cs with
      | case1 | case2 | case3 | case4 => rintro ⟨⟩
  | case3 =>
      fun_cases brace armed cs with
      | case1 _ tail htail =>
          intro h
          cases h
          exact ⟨tail, htail, rfl⟩
      | case2 | case3 => rintro ⟨⟩
  | case4 =>
      fun_cases atSign cs with
      | case1 | case2 | case3 => rintro ⟨⟩
  | case5 =>
      fun_cases string c cs with
      | case1 | case2 => rintro ⟨⟩
  | case6 =>
      intro h
      have hkind : ∀ kind ∈ .identifier :: keywords.map Prod.snd, kind ≠ .rawObject := by decide
      exact absurd (LexemeKind.token.inj h).1 (hkind _ (ofWord_mem _))
  | case7 =>
      fun_cases number c cs with
      | case1 | case2 | case3 => rintro ⟨⟩
  | case8 _ _ _ _ _ _ _ kind hsign =>
      intro h
      have hkind : ∀ kind ∈ [.closeBrace, .openParen, .closeParen, .openBracket, .closeBracket,
          .comma, .colon], kind ≠ TokenKind.rawObject := by decide
      exact absurd (LexemeKind.token.inj h).1 (hkind kind (mem_of_ofSign? hsign))
  | case9 => rintro ⟨⟩

end Lexeme

/-- **A raw block** stands in the source at its place, in braces that match. -/
theorem Token.standsIn_of_mem_scan {source : String} {t : Token} (ht : t ∈ (scan source).tokens)
    (hkind : t.kind = .rawObject) :
    (∃ before after, source.toList = before ++ (t.text.toList ++ after) ∧
      t.position = Position.start.after before) ∧ IsBraced t.text.toList := by
  constructor
  · obtain ⟨spans, -, hspans, -, htokens, -⟩ := scan_spans source
    rw [htokens] at ht
    rcases List.mem_append.mp ht with ht | ht
    · obtain ⟨span, hspan, ht⟩ := List.mem_filterMap.mp ht
      have hsource := hspans span hspan
      obtain ⟨hposition, -⟩ := Span.after_le_of_isOf hsource ht
      obtain ⟨-, -, hspells⟩ := hsource.spelled t ht
      rw [TokenKind.Spells, if_neg (by rw [hkind]; decide)] at hspells
      refine ⟨source.toList.take span.first, source.toList.drop span.stop, ?_, ?_⟩
      · have htake : source.toList.take span.first =
            (source.toList.take span.stop).take span.first := by
          rw [List.take_take, Nat.min_eq_left hsource.nonempty.le]
        rw [← hspells, ← List.append_assoc, htake, List.take_append_drop, List.take_append_drop]
      · rw [hposition, Position.ofOffset_eq_after]
    · obtain rfl := List.mem_singleton.mp ht
      cases hkind
  · obtain ⟨body, stop, htokens, hstop, hbody⟩ := exists_body source
    rw [htokens] at ht
    rcases List.mem_append.mp ht with ht | ht
    · obtain ⟨armed, c, cs, hfirst⟩ := (hbody t ht).2
      rw [hkind] at hfirst
      obtain ⟨tail, htail, htext⟩ := Lexeme.blockTail_of_first hfirst
      rw [htext, String.toList_ofList]
      exact Lexeme.isBraced_of_blockTail htail
    · obtain rfl := List.mem_singleton.mp ht
      rw [hstop] at hkind
      cases hkind

/-! ### Shapes -/

/-- The shape of a field is read from a raw block among the tokens of the field. -/
theorem exists_block_of_writesField {ts : List Token} {f : Field} (h : WritesField ts f) {s : Shape}
    (hs : f.shape = some s) : ∃ t ∈ ts, t.kind = .rawObject ∧ s.raw = t.text ∧
      s.position = t.position ∧ Shape.ofText s.raw s.position s.isArray = .ok s := by
  cases h with
  | mk named typed marked decorated distinct =>
      cases typed with
      | scalar => cases hs
      | model => cases hs
      | @json t block us isArray _ kind marked raw shape =>
          cases hs
          have hshape := (Shape.writes_of_ofText shape).1
          have hraw : s.raw = block.text := by rw [hshape]
          have hposition : s.position = block.position := by rw [hshape]
          have hisArray : s.isArray = isArray := by rw [hshape]
          exact ⟨block, by simp, raw, hraw, hposition, by rw [hraw, hposition, hisArray]; exact shape⟩

/-- **The shapes of a source are read alone.**  In a source that is accepted, take the shape of a
field, or any shape inside it, at whatever depth.  Its place is one of the source; the source goes on
there with the text of the shape, which is in braces that match; and that text, read from that place
by itself, gives the shape again, with the texts and places of all shapes inside it. -/
theorem Compilation.shapes_readAlone {source : String} {strict : Bool} {c : Compilation}
    {s : Schema} (hcompile : (compile source strict).outcome = .ok c) (haccept : c.accept = .ok s)
    {m : Model} (hm : m ∈ s.models) {f : Field} (hf : f ∈ m.fields) {top : Shape}
    (htop : f.shape = some top) {t : Shape} (ht : top.Contains t) :
    (∃ n ≤ source.toList.length, t.position = .ofOffset source.toList n) ∧
      (∀ n ≤ source.toList.length, t.position = .ofOffset source.toList n →
        t.raw.toList <+: source.toList.drop n) ∧
      IsBraced t.raw.toList ∧ Shape.ofText t.raw t.position t.isArray = .ok t := by
  obtain ⟨ts, hts, -, written⟩ := exists_writesModel hcompile haccept hm
  obtain ⟨us, hus, written⟩ := exists_writesField written hf
  obtain ⟨block, hblock, hkind, hraw, hposition, hread⟩ := exists_block_of_writesField written htop
  obtain ⟨⟨before, after, hsource, hplace⟩, hbraced⟩ :=
    Token.standsIn_of_mem_scan (hts (hus hblock)) hkind
  have hfield : top.StandsIn source.toList .start :=
    ⟨before, after, by rw [hraw, hsource], by rw [hposition, hplace]⟩
  obtain ⟨hread, hstands, hbraced⟩ := Shape.standsIn_of_contains ht hread (by rw [hraw]; exact hbraced)
  obtain ⟨before, after, hsource, hplace⟩ := hstands.trans hfield
  have hlength := congrArg List.length hsource
  rw [List.length_append] at hlength
  have hplace : t.position = .ofOffset source.toList before.length := by
    rw [hplace, hsource, Position.ofOffset_append]
  refine ⟨⟨before.length, by omega, hplace⟩, fun n hn hplace' => ?_, hbraced, hread⟩
  obtain rfl := Position.eq_of_ofOffset_eq (by omega) hn (hplace.symm.trans hplace')
  rw [hsource, List.drop_left]
  exact List.prefix_append _ _

/-- A source with a shape in a shape in a shape, on lines of their own. -/
def addressesSource : String :=
  "model user \x7b\n  id int @primary_key\n  profile json \x7b\n    name: string,\n" ++
    "    addresses: \x7b\n      geo?: \x7b lat: float \x7d\n    \x7d[]\n  \x7d\n\x7d\n"

/-- The shape in the middle of it. -/
def addressesShape : Shape :=
  ⟨"\x7b\n      geo?: \x7b lat: float \x7d\n    \x7d", true,
    [⟨"geo", "object", true, false, some ⟨"\x7b lat: float \x7d", false,
      [⟨"lat", "float", false, false, none⟩], ⟨6, 13⟩⟩⟩], ⟨5, 16⟩⟩

/-- The schema of that source. -/
def addresses : Schema :=
  ⟨[{ name := "user"
      fields :=
        [{ name := "id", typeName := "int", isPrimaryKey := true, position := ⟨2, 3⟩ },
         { name := "profile", typeName := "json", position := ⟨3, 3⟩
           shape := some ⟨"\x7b\n    name: string,\n    addresses: " ++ addressesShape.raw ++
             "[]\n  \x7d", false, [⟨"name", "string", false, false, none⟩,
               ⟨"addresses", "object", false, true, some addressesShape⟩], ⟨3, 16⟩⟩ }]
      position := ⟨1, 1⟩ }]⟩

set_option maxRecDepth 100000 in
theorem addresses_accepted :
    ∃ c, (compile addressesSource true).outcome = .ok c ∧ c.accept = .ok addresses :=
  @Schema.accepted_of_ofCharacters? addressesSource _ addresses
    (Text.toList_append_of_eq (Text.toList_of_eq rfl) rfl) (by with_unfolding_all rfl)

theorem addressesShape_readAlone :
    (∃ n ≤ addressesSource.toList.length,
        addressesShape.position = .ofOffset addressesSource.toList n) ∧
      (∀ n ≤ addressesSource.toList.length,
        addressesShape.position = .ofOffset addressesSource.toList n →
          addressesShape.raw.toList <+: addressesSource.toList.drop n) ∧
      IsBraced addressesShape.raw.toList ∧
      Shape.ofText addressesShape.raw addressesShape.position addressesShape.isArray =
        .ok addressesShape := by
  obtain ⟨c, hcompile, haccept⟩ := addresses_accepted
  exact Compilation.shapes_readAlone hcompile haccept List.mem_cons_self
    (List.mem_cons_of_mem _ List.mem_cons_self) rfl
    (.entry (List.mem_cons_of_mem _ List.mem_cons_self) rfl (.refl addressesShape))

end Schemata
