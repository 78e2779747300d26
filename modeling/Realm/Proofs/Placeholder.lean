import Realm.Amount.Binary64
import Realm.Placeholder
import Realm.Proofs.Attempt
import Realm.Proofs.Json

/-!
# Placeholders and their values

A placeholder is a text of a value (`Placeholder.At`): a dollar sign and a name. Replacing the
placeholders comes down to what is done with a text, for the rest of the value is only gone through.
If every placeholder has a value, the result is the value with these in their places
(`substitute_of_supplied`); if not, the first one that has none is told (`firstMissing_of_error`),
and the first is meant by the places in the value, not by how it is gone through.

The other facts follow from these two: what a text is replaced by is not looked at again, and
nothing is asked of names that do not occur. Where no values are given at all, a result is what was
written (`substitute_empty`).
-/

set_option autoImplicit false

namespace Realm

variable {α : Type}

namespace Placeholder

/-! ## Names -/

/-- What may stand after the dollar sign: one or more ASCII letters, digits and underscores. -/
def IsName (name : String) : Prop :=
  name ≠ "" ∧ ∀ c ∈ name.toList,
    ('a' ≤ c ∧ c ≤ 'z') ∨ ('A' ≤ c ∧ c ≤ 'Z') ∨ ('0' ≤ c ∧ c ≤ '9') ∨ c = '_'

theorem isNameChar_iff {c : Char} : isNameChar c = true ↔
    ('a' ≤ c ∧ c ≤ 'z') ∨ ('A' ≤ c ∧ c ≤ 'Z') ∨ ('0' ≤ c ∧ c ≤ '9') ∨ c = '_' := by
  unfold isNameChar Char.isAlphanum Char.isAlpha Char.isUpper Char.isLower Char.isDigit
  simp only [Bool.or_eq_true, Bool.and_eq_true, decide_eq_true_eq, Char.le_def, ge_iff_le]
  rw [or_comm (a := 'A'.val ≤ c.val ∧ c.val ≤ 'Z'.val), or_assoc, or_assoc]

theorem isName_ofList_iff {c : Char} {rest : List Char} :
    IsName (String.ofList (c :: rest)) ↔ (c :: rest).all isNameChar = true := by
  have hne : String.ofList (c :: rest) ≠ "" := by
    intro h
    rw [← String.toList_eq_nil_iff, String.toList_ofList] at h
    cases h
  unfold IsName
  rw [and_iff_right hne, String.toList_ofList, List.all_eq_true]
  exact forall₂_congr fun c _ => isNameChar_iff.symm

theorem name?_eq_some_iff {text name : String} :
    name? text = some name ↔ IsName name ∧ text = "$" ++ name := by
  have htext : text = "$" ++ name ↔ text.toList = '$' :: name.toList := by
    rw [← String.toList_inj, String.toList_append]
    rfl
  rw [htext]
  unfold name?
  split
  · rename_i c rest h
    rw [h, List.cons_inj_right]
    constructor
    · intro hname
      split at hname
      · rename_i hall
        cases hname
        exact ⟨isName_ofList_iff.2 hall, String.toList_ofList.symm⟩
      · cases hname
    · rintro ⟨hname, hrest⟩
      rw [← String.ofList_toList (s := name), ← hrest, isName_ofList_iff] at hname
      rw [if_pos hname, hrest, String.ofList_toList]
  · rename_i hother
    refine iff_of_false (fun h => by cases h) ?_
    rintro ⟨⟨hne, -⟩, h⟩
    cases hlist : name.toList with
    | nil => exact hne (String.toList_eq_nil_iff.1 hlist)
    | cons c rest => exact hother c rest (h.trans (by rw [hlist]))

/-- The value has the placeholder with the name at the place. -/
def At (name : String) (place : Json.Place) (value : Json α) : Prop :=
  IsName name ∧ value.TextAt ("$" ++ name) place

/-- The placeholder with the name is the first in the value that has no value. -/
def FirstMissing (params : ActionParams α) (name : String) (value : Json α) : Prop :=
  ∃ place, At name place value ∧ params.find? name = none ∧
    ∀ other place', At other place' value → params.find? other = none →
      place' = place ∨ place.Before place'

/-- What takes the place of a text: of a placeholder its value, of any other text the text. -/
structure Fills (params : ActionParams α) (fill : String → Json α) : Prop where
  value : ∀ name value, IsName name → params.find? name = some value → fill ("$" ++ name) = value
  literal : ∀ text, (∀ name, IsName name → text ≠ "$" ++ name) → fill text = .text text

/-! ## Going through a value -/

variable {params : ActionParams α}

theorem substitute_text {name : String} (hname : IsName name) :
    substitute params (.text ("$" ++ name))
      = (params.find? name).elim (.error { name }) .ok := by
  unfold substitute
  rw [name?_eq_some_iff.2 ⟨hname, rfl⟩]
  dsimp only
  cases params.find? name <;> rfl

theorem substitute_literal {text : String} (h : ∀ name, IsName name → text ≠ "$" ++ name) :
    substitute params (.text text) = .ok (.text text) := by
  unfold substitute
  cases hname : name? text with
  | none => rfl
  | some name =>
    obtain ⟨hname, htext⟩ := name?_eq_some_iff.1 hname
    exact (h name hname htext).elim

theorem substitute_list (items : List (Json α)) :
    substitute params (.list items) = do return .list (← items.mapM (substitute params)) := by
  have hitems : ∀ items, substituteItems params items = items.mapM (substitute params) := by
    intro items
    induction items with
    | nil => rfl
    | cons item rest ih => rw [List.mapM_cons, ← ih, substituteItems]
  rw [substitute, hitems]

/-- Replacing the placeholders in the value of a field. -/
def substituteField (params : ActionParams α) (field : String × Json α) :
    Except MissingParam (String × Json α) := do
  return (field.1, ← substitute params field.2)

theorem substitute_record (fields : List (String × Json α)) :
    substitute params (.record fields)
      = do return .record (← fields.mapM (substituteField params)) := by
  have hfields : ∀ fields, substituteFields params fields = fields.mapM (substituteField params) := by
    intro fields
    induction fields with
    | nil => rfl
    | cons field rest ih =>
      rw [List.mapM_cons, ← ih, substituteFields, substituteField]
      cases substitute params field.2 <;> rfl
  rw [substitute, hfields]

theorem substituteField_eq_ok {field result : String × Json α} :
    substituteField params field = .ok result ↔
      field.1 = result.1 ∧ substitute params field.2 = .ok result.2 := by
  unfold substituteField
  rw [Outcome.bind_eq_ok]
  constructor
  · rintro ⟨value, hvalue, h⟩
    cases h
    exact ⟨rfl, hvalue⟩
  · rintro ⟨hkey, hvalue⟩
    exact ⟨result.2, hvalue, by rw [hkey]; rfl⟩

theorem substituteField_eq_error {field : String × Json α} {missing : MissingParam} :
    substituteField params field = .error missing ↔ substitute params field.2 = .error missing := by
  unfold substituteField
  cases substitute params field.2 <;> simp [bind, Except.bind, pure, Except.pure]

/-- A text is a placeholder or is replaced by itself. -/
theorem placeholder_or_literal (text : String) :
    (∃ name, IsName name ∧ text = "$" ++ name) ∨ ∀ name, IsName name → text ≠ "$" ++ name := by
  by_cases h : ∃ name, IsName name ∧ text = "$" ++ name
  · exact .inl h
  · exact .inr fun name hname htext => h ⟨name, hname, htext⟩

/-- A placeholder in what has been replaced has a value. -/
theorem exists_of_ok {value result : Json α} (h : substitute params value = .ok result)
    {name : String} {place : Json.Place} (hplace : At name place value) :
    ∃ supplied, params.find? name = some supplied := by
  obtain ⟨hname, htext⟩ := hplace
  generalize htarget : "$" ++ name = text at htext
  induction htext generalizing result with
  | here =>
    subst htarget
    rw [substitute_text hname] at h
    cases hfind : params.find? name with
    | some supplied => exact ⟨supplied, rfl⟩
    | none =>
      rw [hfind] at h
      cases h
  | item hitem _ ih =>
    rw [substitute_list] at h
    obtain ⟨results, hresults, -⟩ := Outcome.bind_eq_ok.1 h
    obtain ⟨result, hresult⟩ := Outcome.ok_of_mapM hresults (List.mem_of_getElem? hitem)
    exact ih hresult
  | field hfield _ ih =>
    rw [substitute_record] at h
    obtain ⟨results, hresults, -⟩ := Outcome.bind_eq_ok.1 h
    obtain ⟨result, hresult⟩ := Outcome.ok_of_mapM hresults hfield
    exact ih (substituteField_eq_ok.1 hresult).2

theorem substitute_ne_ok {value : Json α} {name : String} {place : Json.Place}
    (hplace : At name place value) (hmissing : params.find? name = none) (result : Json α) :
    substitute params value ≠ .ok result := by
  intro h
  obtain ⟨supplied, hfind⟩ := exists_of_ok h hplace
  rw [hmissing] at hfind
  cases hfind

/-- If every placeholder has a value, the result is as it should be. -/
theorem substitute_of_supplied {fill : String → Json α} (hfill : Fills params fill) {value : Json α}
    (h : ∀ name place, At name place value → ∃ supplied, params.find? name = some supplied) :
    substitute params value = .ok (value.mapTexts fill) := by
  induction value using Json.induct with
  | null | bool value | integer value | number value => rfl
  | text text =>
    show _ = Except.ok (fill text)
    rcases placeholder_or_literal text with ⟨name, hname, rfl⟩ | hliteral
    · obtain ⟨supplied, hfind⟩ := h name [] ⟨hname, .here⟩
      rw [substitute_text hname, hfind, Option.elim_some, hfill.value name supplied hname hfind]
    · rw [substitute_literal hliteral, hfill.literal text hliteral]
  | list items ih =>
    have hitems : items.mapM (substitute params) = .ok (items.map (Json.mapTexts fill)) := by
      refine Outcome.mapM_eq_ok_map fun item hitem => ih item hitem fun name place hplace => ?_
      obtain ⟨index, hindex⟩ := List.getElem?_of_mem hitem
      exact h name _ ⟨hplace.1, .item hindex hplace.2⟩
    rw [substitute_list, hitems, Json.mapTexts_list]
    rfl
  | record fields ih =>
    have hfields : fields.mapM (substituteField params)
        = .ok (fields.map fun field => (field.1, field.2.mapTexts fill)) := by
      refine Outcome.mapM_eq_ok_map fun field hfield => substituteField_eq_ok.2 ⟨rfl, ?_⟩
      exact ih field hfield fun name place hplace => h name _ ⟨hplace.1, .field hfield hplace.2⟩
    rw [substitute_record, hfields, Json.mapTexts_record]
    rfl

/-- What is told is the first placeholder without a value. -/
theorem firstMissing_of_error {value : Json α} (hordered : value.Ordered) {missing : MissingParam}
    (h : substitute params value = .error missing) : FirstMissing params missing.name value := by
  induction value using Json.induct with
  | null | bool value | integer value | number value => cases h
  | text text =>
    rcases placeholder_or_literal text with ⟨name, hname, rfl⟩ | hliteral
    · rw [substitute_text hname] at h
      cases hfind : params.find? name with
      | some supplied =>
        rw [hfind] at h
        cases h
      | none =>
        rw [hfind] at h
        cases h
        exact ⟨[], ⟨hname, .here⟩, hfind, fun other place' hplace _ =>
          .inl (Json.textAt_text_iff.1 hplace.2).2⟩
    · rw [substitute_literal hliteral] at h
      cases h
  | list items ih =>
    rw [substitute_list] at h
    rw [Json.Ordered, Json.orderedItems_iff] at hordered
    rcases Outcome.bind_eq_error.1 h with h | ⟨_, -, h⟩
    · obtain ⟨index, item, hitem, herror, hbefore⟩ := Outcome.first_of_mapM_error h
      have hmem := List.mem_of_getElem? hitem
      obtain ⟨place, ⟨hname, htext⟩, hfind, hfirst⟩ := ih item hmem (hordered item hmem) herror
      refine ⟨.item index :: place, ⟨hname, .item hitem htext⟩, hfind, ?_⟩
      rintro other _ ⟨hother, hplace⟩ hmissing
      cases hplace with
      | @item _ at' value _ hitem' htext' =>
      rcases Nat.lt_trichotomy at' index with hlt | rfl | hgt
      · obtain ⟨result, hok⟩ := hbefore at' hlt value hitem'
        exact (substitute_ne_ok ⟨hother, htext'⟩ hmissing result hok).elim
      · rw [hitem] at hitem'
        cases hitem'
        exact (hfirst other _ ⟨hother, htext'⟩ hmissing).imp (congrArg _) .cons
      · exact .inr (.rel (.item hgt))
    · cases h
  | record fields ih =>
    rw [substitute_record] at h
    rw [Json.Ordered, Json.orderedFields_iff] at hordered
    rcases Outcome.bind_eq_error.1 h with h | ⟨_, -, h⟩
    · obtain ⟨index, field, hfield, herror, hbefore⟩ := Outcome.first_of_mapM_error h
      have hmem := List.mem_of_getElem? hfield
      obtain ⟨place, ⟨hname, htext⟩, hfind, hfirst⟩ :=
        ih field hmem (hordered.2 field hmem) (substituteField_eq_error.1 herror)
      refine ⟨.field field.1 :: place, ⟨hname, .field hmem htext⟩, hfind, ?_⟩
      rintro other _ ⟨hother, hplace⟩ hmissing
      cases hplace with
      | @field _ key value _ hmem' htext' =>
      obtain ⟨at', hfield'⟩ := List.getElem?_of_mem hmem'
      rcases Nat.lt_trichotomy at' index with hlt | rfl | hgt
      · obtain ⟨result, hok⟩ := hbefore at' hlt _ hfield'
        exact (substitute_ne_ok ⟨hother, htext'⟩ hmissing _ (substituteField_eq_ok.1 hok).2).elim
      · rw [hfield] at hfield'
        cases hfield'
        exact (hfirst other _ ⟨hother, htext'⟩ hmissing).imp (congrArg _) .cons
      · exact .inr (.rel (.field (Entries.key_lt_key hordered.1 hfield hfield' hgt)))
    · cases h

/-- Nothing is asked of names that do not occur. -/
theorem substitute_congr {other : ActionParams α} {value : Json α}
    (h : ∀ name place, At name place value → other.find? name = params.find? name) :
    substitute other value = substitute params value := by
  induction value using Json.induct with
  | null | bool value | integer value | number value => rfl
  | text text =>
    rcases placeholder_or_literal text with ⟨name, hname, rfl⟩ | hliteral
    · rw [substitute_text hname, substitute_text hname, h name [] ⟨hname, .here⟩]
    · rw [substitute_literal hliteral, substitute_literal hliteral]
  | list items ih =>
    have hitems : items.mapM (substitute other) = items.mapM (substitute params) := by
      refine Outcome.mapM_congr fun item hitem => ih item hitem fun name place hplace => ?_
      obtain ⟨index, hindex⟩ := List.getElem?_of_mem hitem
      exact h name _ ⟨hplace.1, .item hindex hplace.2⟩
    rw [substitute_list, substitute_list, hitems]
  | record fields ih =>
    have hfields : fields.mapM (substituteField other) = fields.mapM (substituteField params) := by
      refine Outcome.mapM_congr fun field hfield => ?_
      unfold substituteField
      rw [ih field hfield fun name place hplace => h name _ ⟨hplace.1, .field hfield hplace.2⟩]
    rw [substitute_record, substitute_record, hfields]

/-! ## What follows -/

/-- What takes the place of a text, also where a value is missing. -/
def filling (params : ActionParams α) (text : String) : Json α :=
  match name? text with
  | none => .text text
  | some name => params.findD name (.text text)

theorem fills_filling (params : ActionParams α) : Fills params (filling params) where
  value name value hname hfind := by
    unfold filling Table.findD
    rw [name?_eq_some_iff.2 ⟨hname, rfl⟩]
    dsimp only
    rw [hfind, Option.getD_some]
  literal text h := by
    unfold filling
    cases hname : name? text with
    | none => rfl
    | some name =>
      obtain ⟨hname, htext⟩ := name?_eq_some_iff.1 hname
      exact (h name hname htext).elim

theorem FirstMissing.unique {name other : String} {value : Json α} (h : FirstMissing params name value)
    (h' : FirstMissing params other value) (hordered : value.Ordered) : name = other := by
  obtain ⟨place, hplace, hfind, hfirst⟩ := h
  obtain ⟨place', hplace', hfind', hfirst'⟩ := h'
  have hsame : place' = place := by
    rcases hfirst other place' hplace' hfind' with heq | hbefore
    · exact heq
    · rcases hfirst' name place hplace hfind with heq | hafter
      · exact heq.symm
      · exact (hbefore.asymm hafter).elim
  subst hsame
  exact String.append_right_inj "$" |>.1 (hplace.2.unique hplace'.2 hordered)

theorem substitute_eq_ok_iff {fill : String → Json α} (hfill : Fills params fill)
    {value result : Json α} : substitute params value = .ok result ↔
      (∀ name place, At name place value → ∃ supplied, params.find? name = some supplied) ∧
        result = value.mapTexts fill := by
  constructor
  · intro h
    have hsupplied : ∀ name place, At name place value →
        ∃ supplied, params.find? name = some supplied := fun name place => exists_of_ok h
    rw [substitute_of_supplied hfill hsupplied] at h
    cases h
    exact ⟨hsupplied, rfl⟩
  · rintro ⟨hsupplied, rfl⟩
    exact substitute_of_supplied hfill hsupplied

theorem substitute_eq_error_iff {value : Json α} (hordered : value.Ordered)
    {missing : MissingParam} :
    substitute params value = .error missing ↔ FirstMissing params missing.name value := by
  refine ⟨firstMissing_of_error hordered, fun hfirst => ?_⟩
  obtain ⟨place, hplace, hfind, -⟩ := id hfirst
  cases hother : substitute params value with
  | ok result => exact (substitute_ne_ok hplace hfind result hother).elim
  | error other =>
    have hname := (firstMissing_of_error hordered hother).unique hfirst hordered
    rw [show other = missing from congrArg MissingParam.mk hname]

/-- A value without placeholders is left as it is. -/
theorem substitute_eq_self {value : Json α} (h : ∀ name place, ¬ At name place value) :
    substitute params value = .ok value := by
  have hfill := fills_filling params
  have hsame : value.mapTexts (filling params) = value := by
    refine Json.mapTexts_eq_self fun text place htext => hfill.literal text ?_
    rintro name hname rfl
    exact h name place ⟨hname, htext⟩
  have hvacuous := substitute_of_supplied hfill fun name place hplace => (h name place hplace).elim
  rw [hvacuous, hsame]

/-- What has been replaced by values without placeholders has none. -/
theorem not_at_of_ok {value result : Json α} (h : substitute params value = .ok result)
    (hsupplied : ∀ key supplied, params.find? key = some supplied →
      ∀ name place, ¬ At name place supplied) (name : String) (place : Json.Place) :
    ¬ At name place result := by
  rintro ⟨hname, htext⟩
  have hfill := fills_filling params
  rw [((substitute_eq_ok_iff hfill).1 h).2] at htext
  obtain ⟨original, front, rest, hfront, hrest, -⟩ := htext.of_mapTexts
  rcases placeholder_or_literal original with ⟨key, hkey, rfl⟩ | hliteral
  · obtain ⟨supplied, hfind⟩ := exists_of_ok h ⟨hkey, hfront⟩
    rw [hfill.value key supplied hkey hfind] at hrest
    exact hsupplied key supplied hfind name rest ⟨hname, hrest⟩
  · rw [hfill.literal original hliteral] at hrest
    exact hliteral name hname (Json.textAt_text_iff.1 hrest).1.symm

/-! ## No values -/

/-- What can be replaced without any values has no placeholders. -/
theorem not_at_of_empty {value result : Json α} (h : substitute .empty value = .ok result)
    (name : String) (place : Json.Place) : ¬ At name place value := by
  intro hplace
  obtain ⟨supplied, hfind⟩ := exists_of_ok h hplace
  cases hfind

theorem substitute_empty {value result : Json α} (h : substitute .empty value = .ok result) :
    result = value := by
  rw [substitute_eq_self (not_at_of_empty h)] at h
  cases h
  rfl

end Placeholder

theorem Effect.substitute_empty {effect result : Effect α}
    (h : effect.substitute .empty = .ok result) : result = effect := by
  obtain ⟨params, hparams, h⟩ := Outcome.bind_eq_ok.1 h
  cases h
  rw [Placeholder.substitute_empty hparams]

theorem Requirement.substitute_empty {requirement result : Requirement α}
    (h : requirement.substitute .empty = .ok result) : result = requirement := by
  obtain ⟨params, hparams, h⟩ := Outcome.bind_eq_ok.1 h
  cases h
  rw [Placeholder.substitute_empty hparams]

namespace Placeholder

/-! ## All of it -/

/-- Replacing placeholders is exact. It succeeds if every placeholder in the value has a value, at
    whatever depth it stands, and otherwise tells the first that has none, in the order of items and
    of keys. The result is the value with the placeholders' values in their places and nothing else
    changed. It does not depend on values of names that do not occur, a value without placeholders
    stays as it is, and replacing a second time changes nothing if no value that is given has
    placeholders of its own. -/
theorem substitution_exact (params : ActionParams α) (value : Json α) :
    ((∃ result, substitute params value = .ok result) ↔
      ∀ name place, At name place value → ∃ supplied, params.find? name = some supplied) ∧
    (value.Ordered → ∀ missing, substitute params value = .error missing ↔
      FirstMissing params missing.name value) ∧
    (∃ fill, Fills params fill ∧
      ∀ result, substitute params value = .ok result → result = value.mapTexts fill) ∧
    (∀ other : ActionParams α,
      (∀ name place, At name place value → other.find? name = params.find? name) →
        substitute other value = substitute params value) ∧
    ((∀ name place, ¬ At name place value) → substitute params value = .ok value) ∧
    ((∀ key supplied, params.find? key = some supplied → ∀ name place, ¬ At name place supplied) →
      (substitute params value >>= substitute params) = substitute params value) := by
  have hfill := fills_filling params
  refine ⟨⟨?_, fun h => ⟨_, substitute_of_supplied hfill h⟩⟩,
    fun hordered missing => substitute_eq_error_iff hordered,
    ⟨filling params, hfill, fun result h => ((substitute_eq_ok_iff hfill).1 h).2⟩,
    fun other => substitute_congr, substitute_eq_self, fun hsupplied => ?_⟩
  · rintro ⟨result, h⟩ name place hplace
    exact exists_of_ok h hplace
  · cases h : substitute params value with
    | error missing => rfl
    | ok result => exact substitute_eq_self (not_at_of_ok h hsupplied)

end Placeholder

namespace Sample

/-- What an action may ask for. A key is no placeholder, and neither is a dollar sign alone, before
    a blank or after other text. -/
def request : Json Binary64 :=
  .record [("amount", .text "$count"), ("fee", .text "$5 fee"), ("id", .text "$id"),
    ("targets", .list [.record [("$id", .text "$landId")], .text "$", .text "cost: $id"])]

/-- Too little for the request, and a value that looks like a placeholder. -/
def supplies : ActionParams Binary64 := .ofList [("id", .text "$id")]

/-- Enough for it. -/
def plenty : ActionParams Binary64 :=
  .ofList [("id", .text "farm"), ("count", .integer 2), ("landId", .list [.text "A-L1"])]

end Sample

namespace Placeholder

open Sample

theorem substitution_exact_request :
    request.Ordered ∧ substitute supplies request = .error { name := "count" } ∧
      FirstMissing supplies "count" request ∧
    (∀ name place, At name place request → ∃ supplied, plenty.find? name = some supplied) ∧
    (∀ key supplied, plenty.find? key = some supplied → ∀ name place, ¬ At name place supplied) ∧
    (substitute plenty request >>= substitute plenty) = substitute plenty request := by
  have hordered : request.Ordered := by
    refine ⟨by decide, trivial, trivial, trivial, ?_, trivial⟩
    exact ⟨⟨by decide, trivial, trivial⟩, trivial, trivial, trivial⟩
  have hmissing : substitute supplies request = .error { name := "count" } := rfl
  obtain ⟨-, hfirst, -⟩ := substitution_exact supplies request
  obtain ⟨hok, -, -, -, -, htwice⟩ := substitution_exact plenty request
  have hplain : ∀ key supplied, plenty.find? key = some supplied →
      ∀ name place, ¬ At name place supplied := by
    intro key supplied hfind
    have hentry := Table.mem_toList_iff.2 hfind
    rw [show plenty.toList = [("count", .integer 2), ("id", .text "farm"),
      ("landId", .list [.text "A-L1"])] from rfl] at hentry
    simp only [List.mem_cons, List.not_mem_nil, Prod.mk.injEq, or_false] at hentry
    rcases hentry with ⟨-, rfl⟩ | ⟨-, rfl⟩ | ⟨-, rfl⟩ <;> exact not_at_of_empty rfl
  exact ⟨hordered, hmissing, (hfirst hordered _).1 hmissing, hok.1 ⟨_, rfl⟩, hplain, htwice hplain⟩

end Placeholder

end Realm
