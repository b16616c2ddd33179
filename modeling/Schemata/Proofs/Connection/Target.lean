import Mathlib.Data.List.TakeDrop
import Mathlib.Data.List.TakeWhile
import Schemata.Proofs.Text.Case
import Schemata.Session.Migration

/-!
# Proofs — connections — targets

An address `scheme://rest` that names a kind of database keeps everything after its scheme, whether
it is used for reading the catalog or for applying a migration (`Target.urls_of_scheme`).

The kind of database is found by the scheme in lower case and without blanks, the driver of the
migration only by the scheme as it is written.  So an address in other letters is accepted and yet
gets no driver, and that is the one way in which the two disagree.

* `Backend.ofUrl_ok_iff` — which addresses are accepted.
* `Backend.driverUrl_eq_iff` — which of them get a driver.
-/

namespace Schemata

namespace Text

/-! ### Cutting a text -/

theorem cut_append {sep : Char} {p : List Char} (cs : List Char) (h : sep ∉ p) :
    cut sep (p ++ sep :: cs) = (p, true, cs) := by
  have hp : ∀ c ∈ p, (c != sep) = true := fun c hc => bne_iff_ne.mpr (ne_of_mem_of_not_mem hc h)
  simp [cut, List.dropWhile_append_of_pos hp, List.takeWhile_append_of_pos hp]

theorem cut_fst (sep : Char) (cs : List Char) : (cut sep cs).1 = cs.takeWhile (· != sep) := by
  unfold cut
  split
  next h => exact (List.takeWhile_eq_self_iff.mpr (List.dropWhile_eq_nil_iff.mp h)).symm
  next => rfl

end Text

open Text

theorem toList_beforePlus (s : String) :
    (beforePlus s).toList = s.toList.takeWhile (· != '+') := by
  rw [beforePlus, String.toList_ofList, cut_fst]

theorem plus_not_mem_beforePlus (s : String) : '+' ∉ (beforePlus s).toList := fun h => by
  rw [toList_beforePlus] at h
  simpa using List.mem_takeWhile_imp h

theorem colon_not_mem_beforePlus {s : String} (h : ':' ∉ s.toList) :
    ':' ∉ (beforePlus s).toList := fun hmem => by
  rw [toList_beforePlus] at hmem
  exact h ((List.takeWhile_prefix _).subset hmem)

/-- The scheme ends at the first `://`. -/
theorem splitAtSlashes_append {scheme : List Char} (rest : List Char) (h : ':' ∉ scheme) :
    splitAtSlashes (scheme ++ ':' :: '/' :: '/' :: rest) = (scheme, ':' :: '/' :: '/' :: rest) := by
  induction scheme with
  | nil => rfl
  | cons c cs ih =>
      rw [List.mem_cons, not_or] at h
      rw [List.cons_append, splitAtSlashes, ih h.2]
      intro ds hc
      exact absurd hc.symm h.1

theorem toList_address (scheme rest : String) : (scheme ++ "://" ++ rest).toList =
    scheme.toList ++ ':' :: '/' :: '/' :: rest.toList := by
  rw [String.toList_append, String.toList_append, List.append_assoc]
  rfl

/-- **Without its driver** an address has the same rest. -/
theorem withoutDriver_append {scheme : String} (rest : String) (h : ':' ∉ scheme.toList) :
    withoutDriver (scheme ++ "://" ++ rest) = beforePlus scheme ++ "://" ++ rest := by
  apply String.toList_inj.mp
  rw [withoutDriver, toList_address, splitAtSlashes_append _ h, toList_address,
    String.toList_append, String.toList_ofList, String.ofList_toList]

/-! ### Which addresses are accepted -/

namespace Url

/-- What a scheme may be: a letter, and then the letters of schemes. -/
def isScheme (cs : List Char) : Bool :=
  (cs.head?.map isLetter).getD false && cs.all isSchemeChar

/-- What is kept of an address after its front. -/
def isKept (c : Char) : Bool := c != '\t' && c != '\n' && c != '\r'

/-- Blanks at the front are the scheme's to lose. -/
theorem cleaned_append (scheme rest : List Char) :
    cleaned (scheme ++ ':' :: rest) = cleaned scheme ++ ':' :: rest.filter isKept := by
  have hdrop : (scheme ++ ':' :: rest).dropWhile (fun c => decide (c.toNat ≤ 32)) =
      scheme.dropWhile (fun c => decide (c.toNat ≤ 32)) ++ ':' :: rest := by
    induction scheme with
    | nil => rfl
    | cons c cs ih =>
        by_cases hc : c.toNat ≤ 32
        · simpa [List.dropWhile_cons, hc] using ih
        · simp [hc]
  rw [cleaned, cleaned, hdrop, List.filter_append]
  rfl

/-- Cleaning takes no plus sign away. -/
theorem cleaned_takeWhile (cs : List Char) :
    cleaned (cs.takeWhile (· != '+')) = (cleaned cs).takeWhile (· != '+') := by
  have hfilter : ∀ ds : List Char, (ds.takeWhile (· != '+')).filter isKept =
      (ds.filter isKept).takeWhile (· != '+') := by
    intro ds
    induction ds with
    | nil => rfl
    | cons d ds ih =>
        by_cases hd : d = '+'
        · subst hd
          rfl
        · by_cases hk : isKept d = true <;> simp [hd, hk, ih]
  induction cs with
  | nil => rfl
  | cons c cs ih =>
      by_cases hc : c.toNat ≤ 32
      · have hne : c ≠ '+' := by
          rintro rfl
          exact absurd hc (by decide)
        simpa [cleaned, hc, hne] using ih
      · have hcleaned : ∀ ds, cleaned (c :: ds) = (c :: ds).filter isKept := fun ds => by
          simp only [cleaned, List.dropWhile_cons, hc, decide_false]
          rfl
        by_cases hplus : c = '+'
        · subst hplus
          rfl
        · have htake : (c :: cs).takeWhile (· != '+') = c :: cs.takeWhile (· != '+') := by
            simp [hplus]
          rw [hcleaned, ← hfilter, htake, hcleaned]

/-- A scheme without its driver is a scheme. -/
theorem isScheme_takeWhile {cs : List Char} (h : isScheme cs = true) :
    isScheme (cs.takeWhile (· != '+')) = true := by
  obtain ⟨hhead, hall⟩ := Bool.and_eq_true_iff.mp h
  refine Bool.and_eq_true_iff.mpr ⟨?_, ?_⟩
  · cases cs with
    | nil => cases hhead
    | cons c cs =>
        have hne : c ≠ '+' := fun hc => by
          rw [hc] at hhead
          cases hhead
        simpa [hne] using hhead
  · exact List.all_eq_true.mpr fun c hc =>
      List.all_eq_true.mp hall c ((List.takeWhile_prefix _).subset hc)

/-- A text that may be a scheme is the scheme, in lower case. -/
theorem splitScheme_append {p : List Char} (rest : List Char) (h : ':' ∉ p) :
    splitScheme (p ++ ':' :: rest) =
      if isScheme p then (lower (String.ofList p), rest) else ("", p ++ ':' :: rest) := by
  rw [splitScheme, cut_append rest h]
  rfl

end Url

namespace Backend

/-- The name of the kind of database in a scheme, in lower case. -/
def schemeName (scheme : List Char) : String :=
  String.ofList (((Url.cleaned scheme).takeWhile (· != '+')).map Char.toLower)

/-- The scheme of a URL is the lower case of what comes before a plus sign. -/
theorem lower_schemeName {scheme : List Char} (h : Url.isScheme (Url.cleaned scheme) = true) :
    lower (beforePlus (lower (String.ofList (Url.cleaned scheme)))) = schemeName scheme := by
  have hascii : ∀ c ∈ Url.cleaned scheme, c.toNat < 128 := fun c hc => by
    have hall := List.all_eq_true.mp (Bool.and_eq_true_iff.mp h).2 c hc
    exact of_decide_eq_true (Bool.and_eq_true_iff.mp hall).1
  have hplus : ((· != '+') ∘ Char.toLower) = (· != '+') := funext fun c => by
    rw [Function.comp_apply, Bool.eq_iff_iff, bne_iff_ne, bne_iff_ne, Ne, toLower_eq_plus_iff]
  have hbefore : beforePlus (lower (String.ofList (Url.cleaned scheme))) = schemeName scheme := by
    apply String.toList_inj.mp
    rw [toList_beforePlus, lower_of_ascii hascii, schemeName, String.toList_ofList,
      String.toList_ofList, List.takeWhile_map, hplus]
  rw [hbefore, schemeName, lower_of_ascii, List.map_map]
  · simp only [Function.comp_def, toLower_toLower]
  · intro c hc
    obtain ⟨d, hd, rfl⟩ := List.mem_map.mp hc
    exact toLower_lt d (hascii d ((List.takeWhile_prefix _).subset hd))

/-- An address is accepted for its scheme, if what follows can be taken apart. -/
theorem ofUrl_eq_ok_iff {url : String} {b : Backend} :
    ofUrl url = .ok b ↔
      Url.checkAuthority (Url.splitAuthority (Url.splitScheme (Url.cleaned url.toList)).2).1 =
          .ok () ∧
        schemes.lookup (lower (beforePlus (Url.splitScheme (Url.cleaned url.toList)).1)) =
          some b := by
  unfold ofUrl Url.ofString
  generalize Url.splitScheme (Url.cleaned url.toList) = s
  cases hc : Url.checkAuthority (Url.splitAuthority s.2).1 with
  | error f => simp [hc, bind, Except.bind, Except.mapError]
  | ok u =>
      simp only [hc, bind, Except.bind, Except.mapError, pure, Except.pure, true_and]
      cases schemes.lookup (lower (beforePlus s.1)) <;> simp [throw, throwThe, MonadExceptOf.throw]

/-- **The addresses that are accepted**: the scheme is one, what follows its slashes can be taken
apart, and a kind of database has the name. -/
theorem ofUrl_ok_iff {scheme : String} (rest : String) {b : Backend} (h : ':' ∉ scheme.toList) :
    ofUrl (scheme ++ "://" ++ rest) = .ok b ↔
      Url.isScheme (Url.cleaned scheme.toList) = true ∧
        Url.checkAuthority ((rest.toList.filter Url.isKept).takeWhile (!Url.endsAuthority ·)) =
          .ok () ∧
        schemes.lookup (schemeName scheme.toList) = some b := by
  have hcolon : ':' ∉ Url.cleaned scheme.toList := fun hmem => by
    obtain ⟨hmem, -⟩ := List.mem_filter.mp hmem
    exact h ((List.dropWhile_sublist _).subset hmem)
  have hkept : ('/' :: '/' :: rest.toList).filter Url.isKept =
      '/' :: '/' :: rest.toList.filter Url.isKept := rfl
  rw [ofUrl_eq_ok_iff, toList_address, Url.cleaned_append, Url.splitScheme_append _ hcolon, hkept]
  cases hs : Url.isScheme (Url.cleaned scheme.toList) with
  | false =>
      have hnone : schemes.lookup (lower (beforePlus "")) = none := by decide
      simp [hnone]
  | true =>
      rw [if_pos rfl, lower_schemeName hs]
      simp [Url.splitAuthority, List.span_eq_takeWhile_dropWhile]

/-- What is accepted is accepted without its driver. -/
theorem ofUrl_beforePlus {scheme rest : String} {b : Backend} (h : ':' ∉ scheme.toList)
    (hb : ofUrl (scheme ++ "://" ++ rest) = .ok b) :
    ofUrl (beforePlus scheme ++ "://" ++ rest) = .ok b := by
  obtain ⟨hscheme, hrest, hname⟩ := (ofUrl_ok_iff rest h).mp hb
  have hcleaned : Url.cleaned (beforePlus scheme).toList =
      (Url.cleaned scheme.toList).takeWhile (· != '+') := by
    rw [toList_beforePlus, Url.cleaned_takeWhile]
  refine (ofUrl_ok_iff rest (colon_not_mem_beforePlus h)).mpr ⟨?_, hrest, ?_⟩
  · rw [hcleaned]
    exact Url.isScheme_takeWhile hscheme
  · rw [schemeName, hcleaned, List.takeWhile_idem]
    exact hname

/-! ### Which addresses get a driver -/

theorem plainFronts_eq (b : Backend) :
    b.plainFronts = (schemes.filter (·.2 == b)).map (·.1 ++ "://") := by
  cases b <;> decide

/-- A plain front is a scheme of the backend, with a colon and two slashes. -/
theorem mem_plainFronts_iff {b : Backend} {front : String} :
    front ∈ b.plainFronts ↔ ∃ scheme, (scheme, b) ∈ schemes ∧ scheme ++ "://" = front := by
  rw [plainFronts_eq, List.mem_map]
  constructor
  · rintro ⟨p, hmem, rfl⟩
    obtain ⟨hmem, hb⟩ := List.mem_filter.mp hmem
    exact ⟨p.1, eq_of_beq hb ▸ hmem, rfl⟩
  · rintro ⟨scheme, hmem, rfl⟩
    exact ⟨(scheme, b), List.mem_filter.mpr ⟨hmem, beq_self_eq_true b⟩, rfl⟩

theorem colon_not_mem_schemes {scheme : String} {b : Backend} (h : (scheme, b) ∈ schemes) :
    ':' ∉ scheme.toList := by
  have hall : ∀ p ∈ schemes, ':' ∉ p.1.toList := by decide
  exact hall _ h

/-- The fronts of addresses differ as their schemes do. -/
theorem front_isPrefixOf_iff {name scheme : String} (rest : String) (hname : ':' ∉ name.toList)
    (hscheme : ':' ∉ scheme.toList) :
    (name ++ "://").toList.isPrefixOf (scheme ++ "://" ++ rest).toList = true ↔ name = scheme := by
  rw [List.isPrefixOf_iff_prefix]
  constructor
  · rintro ⟨tail, htail⟩
    have h := splitAtSlashes_append rest.toList hscheme
    rw [← toList_address, ← htail, String.toList_append, List.append_assoc] at h
    have h' := (splitAtSlashes_append tail hname).symm.trans h
    exact String.toList_inj.mp (Prod.mk.inj h').1
  · rintro rfl
    exact ⟨rest.toList, String.toList_append.symm⟩

/-- An address without a driver gets that of its database just if its scheme is written as the
database has it. -/
theorem driverUrl_eq (b : Backend) {scheme : String} (rest : String) (h : ':' ∉ scheme.toList) :
    b.driverUrl (scheme ++ "://" ++ rest) =
      if (scheme, b) ∈ schemes then b.driverFront ++ rest else scheme ++ "://" ++ rest := by
  unfold driverUrl
  split
  next front hfront =>
    obtain ⟨name, hname, rfl⟩ := mem_plainFronts_iff.mp (List.mem_of_find?_eq_some hfront)
    have hprefix := List.find?_some hfront
    obtain rfl := (front_isPrefixOf_iff rest (colon_not_mem_schemes hname) h).mp hprefix
    have hlist : (name ++ "://" ++ rest).toList = (name ++ "://").toList ++ rest.toList :=
      String.toList_append
    rw [if_pos hname, hlist, ← String.length_toList, List.drop_left, String.ofList_toList]
  next hnone =>
    have hnot : (scheme, b) ∉ schemes := fun hmem => by
      have hfront := List.find?_eq_none.mp hnone _ (mem_plainFronts_iff.mpr ⟨scheme, hmem, rfl⟩)
      exact hfront ((front_isPrefixOf_iff rest h h).mpr rfl)
    rw [if_neg hnot]

/-- Without the plus sign no address begins as one with a driver. -/
theorem address_ne_driverFront (b : Backend) {scheme rest : String} (h : '+' ∉ scheme.toList) :
    scheme ++ "://" ++ rest ≠ b.driverFront ++ rest := by
  intro heq
  have hfront : (scheme ++ "://").toList = b.driverFront.toList := by
    have hlist := String.toList_append.symm.trans
      ((congrArg String.toList heq).trans String.toList_append)
    exact List.append_cancel_right hlist
  have hplus : '+' ∈ b.driverFront.toList := by cases b <;> decide
  rw [← hfront, String.toList_append, List.mem_append] at hplus
  exact hplus.elim h (by decide)

end Backend

/-- **The two addresses of a target.**  The address for reading the catalog has the same rest and
names the same kind of database.  The one for applying a migration has the driver and the same rest
just if the scheme, without its driver, is written as the database has it; otherwise it is the
address for reading the catalog. -/
theorem Target.urls_of_scheme {scheme rest : String} {b : Backend} (h : ':' ∉ scheme.toList)
    (hb : Backend.ofUrl (scheme ++ "://" ++ rest) = .ok b) (timeout : Int) :
    let t : Target := ⟨scheme ++ "://" ++ rest, b⟩
    ((t.introspector timeout).url = beforePlus scheme ++ "://" ++ rest ∧
        Backend.ofUrl (t.introspector timeout).url = .ok b) ∧
      (∀ s past, ((t.engine timeout).create.run s past).events =
        [.createEngine b t.migrationUrl timeout]) ∧
      (t.migrationUrl = b.driverFront ++ rest ↔ (beforePlus scheme, b) ∈ Backend.schemes) ∧
      (t.migrationUrl = b.driverFront ++ rest ∨
        t.migrationUrl = beforePlus scheme ++ "://" ++ rest) := by
  intro t
  have hcatalog : t.catalogUrl = beforePlus scheme ++ "://" ++ rest := withoutDriver_append rest h
  have hcolon := colon_not_mem_beforePlus h
  have hmigration : t.migrationUrl = if (beforePlus scheme, b) ∈ Backend.schemes then
      b.driverFront ++ rest else beforePlus scheme ++ "://" ++ rest := by
    rw [Target.migrationUrl, hcatalog]
    exact Backend.driverUrl_eq b rest hcolon
  refine ⟨⟨hcatalog, ?_⟩, fun s past => rfl, ?_, ?_⟩
  · exact (congrArg Backend.ofUrl hcatalog).trans (Backend.ofUrl_beforePlus h hb)
  · rw [hmigration]
    by_cases hmem : (beforePlus scheme, b) ∈ Backend.schemes
    · exact iff_of_true (if_pos hmem) hmem
    · rw [if_neg hmem]
      exact iff_of_false (Backend.address_ne_driverFront b (plus_not_mem_beforePlus scheme)) hmem
  · rw [hmigration]
    split
    · exact .inl rfl
    · exact .inr rfl

/-- The rest keeps its plus signs, its capitals and its slashes. -/
theorem Target.urls_of_otherDriver :
    ':' ∉ "postgres+psycopg".toList ∧
      Backend.ofUrl "postgres+psycopg://u@h/a+b://C" = .ok .postgres ∧
      (Target.mk "postgres+psycopg://u@h/a+b://C" .postgres).migrationUrl =
        "postgresql+asyncpg://u@h/a+b://C" ∧
      ((Target.mk "postgres+psycopg://u@h/a+b://C" .postgres).introspector 10).url =
        "postgres://u@h/a+b://C" := by
  have hcolon : ':' ∉ "postgres+psycopg".toList := by decide
  have hb : Backend.ofUrl ("postgres+psycopg" ++ "://" ++ "u@h/a+b://C") = .ok .postgres := rfl
  obtain ⟨⟨hcatalog, -⟩, -, hmigration, -⟩ := Target.urls_of_scheme hcolon hb 10
  exact ⟨hcolon, hb, hmigration.mpr (by decide), hcatalog⟩

/-- A scheme in other letters is accepted, and no driver is put in. -/
theorem Target.urls_of_capitals :
    Backend.ofUrl "MySQL+aiomysql://h/db" = .ok .mysql ∧
      (Target.mk "MySQL+aiomysql://h/db" .mysql).migrationUrl = "MySQL://h/db" ∧
      (Target.mk "MySQL+aiomysql://h/db" .mysql).migrationUrl ≠
        Backend.driverFront .mysql ++ "h/db" := by
  refine ⟨rfl, rfl, by decide⟩

end Schemata
