import Mathlib
import TacEvm.Model.Eip712

/-!
# The types of an EIP-712 message

Different objects may ask for the same name of a type; a number is then added to it. `HasType` says
when a type in the map describes a value, all the way down, and definitions are only ever added.
-/

namespace TacEvm.Eip712

open KeyValue FallibleState

/-- A string has the characters of its pieces. -/
theorem mem_splitOn {sep c : Char} {l piece : List Char} (h : piece ∈ l.splitOn sep)
    (hc : c ∈ piece) : c ∈ l ∧ c ≠ sep := by
  induction l generalizing piece with
  | nil =>
    rw [List.splitOn_nil, List.mem_singleton] at h
    rw [h] at hc
    cases hc
  | cons d l ih =>
    rw [List.splitOn_cons_eq_if_modifyHead] at h
    cases hpieces : l.splitOn sep <;> grind [List.modifyHead]

/-- Only letters change when a word is capitalised. -/
theorem mem_of_mem_title {c : Char} {l : List Char} (h : c ∈ title l) (hc : ¬ c.isAlpha = true) :
    c ∈ l := by
  induction l with
  | nil => cases h
  | cons d l ih =>
    have hupper := d.isAlpha_toUpper_eq_isAlpha
    unfold title at h
    grind

/-- A sanitized name has no dots and underscores. -/
theorem plain_sanitizeTypedef {name : String} {c : Char} (h : c ∈ (sanitizeTypedef name).toList) :
    c ≠ '.' ∧ c ≠ '_' := by
  by_cases halpha : c.isAlpha = true
  · constructor
    · rintro rfl
      cases halpha
    · rintro rfl
      cases halpha
  rw [sanitizeTypedef, String.toList_ofList, List.mem_flatMap] at h
  obtain ⟨part, hpart, hc⟩ := h
  split at hc
  · have hletters : typePrefix.toList.all Char.isAlpha = true := rfl
    exact absurd (List.all_eq_true.mp hletters c hc) halpha
  · obtain ⟨word, hword, hc⟩ := List.mem_flatMap.mp hc
    obtain ⟨hmem, hbar⟩ := mem_splitOn hword (mem_of_mem_title hc halpha)
    exact ⟨(mem_splitOn hpart hmem).2, hbar⟩

/-- A path below the root. -/
def Below (path : String) : Prop := ∃ rest, path.toList = '_' :: '.' :: rest

/-- The path of a field is below the root. -/
theorem below_prefixForSubField {path : String} (h : path = rootPrefix ∨ Below path)
    (name : String) : Below (prefixForSubField path name) := by
  unfold Below prefixForSubField
  rw [String.toList_append, String.toList_append]
  rcases h with rfl | ⟨rest, hrest⟩
  · exact ⟨name.toList, rfl⟩
  · rw [hrest]
    exact ⟨_, rfl⟩

/-- A name of a type that is not in the map from the start. -/
def Named (name : String) : Prop := ∃ rest, name.toList = 'T' :: 'y' :: rest

/-- Such a name is not that of the transaction. -/
theorem Named.ne {name : String} (h : Named name) : name ≠ txField := by
  obtain ⟨rest, hrest⟩ := h
  rintro rfl
  cases hrest

/-- A suffix does not matter. -/
theorem Named.append {name : String} (h : Named name) (s : String) : Named (name ++ s) := by
  obtain ⟨rest, hrest⟩ := h
  exact ⟨rest ++ s.toList, by rw [String.toList_append, hrest]; rfl⟩

/-- Types of fields are named so. -/
theorem named_sanitizeTypedef {path : String} (h : Below path) : Named (sanitizeTypedef path) := by
  obtain ⟨rest, hrest⟩ := h
  have hsplit : path.toList.splitOn '.' = rootPrefix.toList :: rest.splitOn '.' := by
    have hdot : '.' ∉ rootPrefix.toList := by decide
    rw [hrest]
    exact List.splitOn_append_cons_self_of_not_mem hdot rest
  unfold sanitizeTypedef Named
  rw [String.toList_ofList, hsplit, List.flatMap_cons, if_pos rfl]
  exact ⟨_, rfl⟩

/-- The name of a type below the root is not changed. -/
theorem sanitizeTypedef_indexed {path : String} (h : Below path) (i : ℕ) :
    sanitizeTypedef (typeDefWithIndex (sanitizeTypedef path) i) =
      typeDefWithIndex (sanitizeTypedef path) i := by
  obtain ⟨rest, hrest⟩ := (named_sanitizeTypedef h).append (toString i)
  have hplain : ∀ c ∈ (typeDefWithIndex (sanitizeTypedef path) i).toList, c ≠ '.' ∧ c ≠ '_' := by
    intro c hc
    rw [typeDefWithIndex, String.toList_append, List.mem_append] at hc
    rcases hc with hc | hc
    · exact plain_sanitizeTypedef hc
    · have hdigits : c ∈ (Nat.repr i).toList := hc
      rw [Nat.toList_repr] at hdigits
      have hdigit := Nat.isDigit_of_mem_toDigits (by decide) (by decide) hdigits
      constructor
      · rintro rfl
        cases hdigit
      · rintro rfl
        cases hdigit
  unfold typeDefWithIndex at hplain ⊢
  generalize sanitizeTypedef path ++ toString i = name at hrest hplain
  have hroot : name.toList ≠ rootPrefix.toList := by simp [hrest, rootPrefix]
  have htitle : title name.toList = name.toList := by
    rw [hrest]
    rfl
  unfold sanitizeTypedef
  rw [List.splitOn_eq_singleton fun h => (hplain _ h).1 rfl, List.flatMap_singleton, if_neg hroot,
    List.splitOn_eq_singleton fun h => (hplain _ h).2 rfl, List.flatMap_singleton, htitle,
    String.ofList_toList]

/-! ## The map of types -/

variable {types types' typeMap : Types}

/-- Nothing changes but the type of the transaction. -/
def Extends (types types' : Types) : Prop :=
  ∀ name, name ≠ txField → ∀ ts, get types name = some ts → get types' name = some ts

/-- Nothing that is defined changes. -/
def Grows (types types' : Types) : Prop :=
  ∀ name ts, get types name = some ts → get types' name = some ts

/-- The definition is found under its name, and nothing else changes. -/
theorem addTypesFrom_ok {typeDef name : String} {ts : List TypeField} {index left : ℕ}
    (h : addTypesFrom types typeDef ts index left = .ok (name, types')) :
    Grows types types' ∧ get types' name = some ts ∧ ∃ i, name = typeDefWithIndex typeDef i := by
  induction left generalizing index with
  | zero => cases h
  | succ left ih =>
    unfold addTypesFrom at h
    cases hfound : get types (typeDefWithIndex typeDef index) with
    | none =>
      simp only [hfound] at h
      cases h
      refine ⟨fun name ts' hold => ?_, ?_, index, rfl⟩
      · rw [get_set, if_neg, hold]
        rintro rfl
        rw [hfound] at hold
        cases hold
      · rw [get_set, if_pos rfl]
    | some existing =>
      simp only [hfound] at h
      split at h
      · rename_i hsame
        cases h
        exact ⟨fun _ _ hold => hold, hsame ▸ hfound, index, rfl⟩
      · exact ih h

/-- A value with a type of its own, also in an array. -/
def Json.isElement : Json → Bool
  | .null => false
  | .array _ => false
  | _ => true

/-- A value that is listed as a field. -/
def Json.isListed : Json → Bool
  | .array [] => true
  | .array (first :: _) => first.isElement
  | v => v.isElement

/-- **What a type says of a value**: its fields, once and with their types. -/
inductive HasType (types : Types) : Json → String → Prop
  | scalar (v : Json) (name : String) (h : getEthTypeForJSON v = some name) : HasType types v name
  | emptyArray : HasType types (.array []) "string[]"
  | array (first : Json) (rest : List Json) (name : String) (helement : first.isElement = true)
      (h : HasType types first name) : HasType types (.array (first :: rest)) (name ++ "[]")
  | object (fields : Fields) (name : String) (ts : List TypeField) (hname : name ≠ txField)
      (hdefined : get types name = some ts) (hnodup : (ts.map TypeField.name).Nodup)
      (hlisted : ∀ key, key ∈ ts.map TypeField.name ↔
        ∃ v, get fields key = some v ∧ v.isListed = true)
      (htypes : ∀ t ∈ ts, ∀ v, get fields t.name = some v → HasType types v t.type) :
      HasType types (.object fields) name

/-- A type that describes a value goes on to do so. -/
theorem HasType.mono {v : Json} {name : String} (h : HasType types v name)
    (hextends : Extends types types') : HasType types' v name := by
  induction h with
  | scalar v name h => exact .scalar v name h
  | emptyArray => exact .emptyArray
  | array first rest name helement _ ih => exact .array first rest name helement ih
  | object fields name ts hname hdefined hnodup hlisted _ ih =>
    exact .object fields name ts hname (hextends name hname ts hdefined) hnodup hlisted ih

/-- A key of letters, digits and underscores. -/
def PlainKey (key : String) : Prop := ∀ c ∈ key.toList, c.isAlphanum = true ∨ c = '_'

/-- The keys of every object are distinct and plain. -/
inductive Json.Plain : Json → Prop
  | null : Plain .null
  | bool (b : Bool) : Plain (.bool b)
  | number (raw : String) : Plain (.number raw)
  | string (s : String) : Plain (.string s)
  | array (elems : List Json) (h : ∀ v ∈ elems, Plain v) : Plain (.array elems)
  | object (fields : Fields) (hkeys : (fields.map Prod.fst).Nodup)
      (hplain : ∀ field ∈ fields, PlainKey field.1)
      (h : ∀ field ∈ fields, Plain field.2) : Plain (.object fields)

/-- What a walk over a value does below the root. -/
def Walk.Describes (walk : Walk) (v : Json) (listed : Bool) : Prop :=
  ∀ path types type types', Below path → walk path types = .ok (type, types') →
    Grows types types' ∧ type.isSome = listed ∧ ∀ name, type = some name → HasType types' v name

/-- Growing is extending. -/
theorem Grows.extends (h : Grows types types') : Extends types types' := fun name _ => h name

/-- What the loop over the fields of an object has listed. -/
structure Listed (types : Types) (fields : Fields) (ts : List TypeField) : Prop where
  names : ts.map TypeField.name = (fields.filter fun field => field.2.isListed).map Prod.fst
  types : ∀ t ∈ ts, ∃ v, (t.name, v) ∈ fields ∧ HasType types v t.type

/-- The loop lists the fields with their types. -/
theorem addFields_ok {path : String} (hpath : path = rootPrefix ∨ Below path) {walk : Json → Walk}
    {fields : Fields} (hwalk : ∀ field ∈ fields, (walk field.2).Describes field.2 field.2.isListed)
    {ts ts' : List TypeField}
    (h : addFields path (fields.map fun field => (field.1, walk field.2)) ts types =
      .ok (ts', types')) :
    Grows types types' ∧ ∃ new, ts' = ts ++ new ∧ Listed types' fields new := by
  induction fields generalizing ts types with
  | nil =>
    cases h
    exact ⟨fun _ _ h => h, [], by simp, rfl, by simp⟩
  | cons field fields ih =>
    obtain ⟨⟨type, types₁⟩, hfield, hrest⟩ := except_bind_ok.mp h
    obtain ⟨hgrows, hsome, htype⟩ := hwalk field List.mem_cons_self _ _ _ _
      (below_prefixForSubField hpath field.1) hfield
    obtain ⟨hgrows', new, rfl, hnames, htypes⟩ :=
      ih (fun field' h' => hwalk field' (List.mem_cons_of_mem field h')) hrest
    have hall : Grows types types' := fun name ts h => hgrows' name ts (hgrows name ts h)
    refine ⟨hall, (type.map (TypeField.mk field.1)).toList ++ new, List.append_assoc .., ?_, ?_⟩
    · rw [List.map_append, hnames, List.filter_cons, ← hsome]
      cases type <;> rfl
    · intro t ht
      rcases List.mem_append.mp ht with ht | ht
      · obtain ⟨name, hname, rfl⟩ := Option.map_eq_some_iff.mp (Option.mem_toList.mp ht)
        exact ⟨field.2, List.mem_cons_self, (htype name hname).mono hgrows'.extends⟩
      · obtain ⟨v, hv, hhas⟩ := htypes t ht
        exact ⟨v, List.mem_cons_of_mem field hv, hhas⟩

/-- Every field is walked over by its value. -/
theorem fieldWalks_eq (rootType : String) (fields : Fields) :
    fieldWalks rootType fields =
      fields.map fun field => (field.1, valueWalk rootType false field.2) := by
  induction fields with
  | nil => rfl
  | cons field fields ih =>
    rw [List.map_cons, ← ih]
    rfl

/-- The type that is added for an object describes it. -/
theorem recursivelyAddTypesToRoot_ok {rootType path name : String} {fields : Fields}
    (hkeys : (fields.map Prod.fst).Nodup)
    (hwalk : ∀ field ∈ fields,
      (valueWalk rootType false field.2).Describes field.2 field.2.isListed)
    (hpath : path = rootPrefix ∨ Below path) (hnamed : Named (typeDefForPrefix path rootType))
    (h : recursivelyAddTypesToRoot types rootType path (fieldWalks rootType fields) =
      .ok (name, types')) :
    Grows types types' ∧ HasType types' (.object fields) name ∧
      ∃ i, name = typeDefWithIndex (typeDefForPrefix path rootType) i := by
  have hsorted : sortedJSONKeys (fieldWalks rootType fields) =
      (sortedJSONKeys fields).map fun field => (field.1, valueWalk rootType false field.2) := by
    rw [fieldWalks_eq]
    exact (List.map_insertionSort (fun f g : String × Json => g.1 ≤ f.1)
      (fun f g : String × Walk => g.1 ≤ f.1) _ fields fun _ _ _ _ => Iff.rfl).symm
  have hperm : (sortedJSONKeys fields).Perm fields := List.perm_insertionSort _ fields
  obtain ⟨⟨ts, types₁⟩, hfields, hadd⟩ := except_bind_ok.mp h
  rw [hsorted] at hfields
  obtain ⟨hgrows, _, rfl, hnames, htypes⟩ :=
    addFields_ok hpath (fun field hfield => hwalk field (hperm.mem_iff.mp hfield)) hfields
  obtain ⟨hgrows', hdefined, i, rfl⟩ := addTypesFrom_ok hadd
  refine ⟨fun name ts h => hgrows' name ts (hgrows name ts h),
    .object fields _ _ (hnamed.append _).ne hdefined ?_ (fun key => ?_) fun t ht v hv => ?_, i, rfl⟩
  · rw [hnames]
    exact ((hperm.map _).nodup_iff.mpr hkeys).sublist (List.filter_sublist.map _)
  · rw [hnames, List.mem_map]
    constructor
    · rintro ⟨⟨key, v⟩, hmem, rfl⟩
      obtain ⟨hmem, hlisted⟩ := List.mem_filter.mp hmem
      exact ⟨v, get_eq_some_of_mem hkeys (hperm.mem_iff.mp hmem), hlisted⟩
    · rintro ⟨v, hv, hlisted⟩
      exact ⟨(key, v), List.mem_filter.mpr
        ⟨hperm.mem_iff.mpr (mem_of_get_eq_some hv), hlisted⟩, rfl⟩
  · obtain ⟨v', hv', hhas⟩ := htypes t ht
    rw [get_eq_some_of_mem hkeys (hperm.mem_iff.mp hv')] at hv
    cases hv
    exact hhas.mono hgrows'.extends

/-- A walk that leaves the map alone. -/
theorem describes_constant {v : Json} {type : Option String}
    (h : ∀ types name, type = some name → HasType types v name) :
    Walk.Describes (fun _ typeMap => .ok (type, typeMap)) v type.isSome := by
  rintro path types _ _ - ⟨⟩
  exact ⟨fun _ _ h => h, rfl, h types⟩

/-- **Every walk describes its value**, also in an array. -/
theorem describes {v : Json} (rootType : String) (hv : v.Plain) :
    (valueWalk rootType true v).Describes v v.isElement ∧
      (valueWalk rootType false v).Describes v v.isListed := by
  induction hv with
  | null | bool | number | string =>
    exact ⟨describes_constant fun _ => .scalar _, describes_constant fun _ => .scalar _⟩
  | array elems _ ih =>
    cases elems with
    | nil =>
      refine ⟨describes_constant ?_, describes_constant ?_⟩
      · rintro types name ⟨⟩
      · rintro types name ⟨⟩
        exact .emptyArray
    | cons first rest =>
      refine ⟨describes_constant (by rintro types name ⟨⟩), ?_⟩
      intro path types type types' hpath h
      obtain ⟨⟨type₁, types₁⟩, hfirst, hreturn⟩ := except_bind_ok.mp h
      cases hreturn
      obtain ⟨hgrows, hsome, htype⟩ := (ih first List.mem_cons_self).1 _ _ _ _ hpath hfirst
      refine ⟨hgrows, (Option.isSome_map ..).trans hsome, fun name hname => ?_⟩
      obtain ⟨name₁, rfl, rfl⟩ := Option.map_eq_some_iff.mp hname
      exact .array first rest name₁ hsome.symm (htype name₁ rfl)
  | object fields hkeys _ _ ih =>
    have helement (isCollection : Bool) :
        (valueWalk rootType isCollection (.object fields)).Describes (.object fields) true := by
      intro path types type types' hpath h
      obtain ⟨⟨name, types₁⟩, hadd, hreturn⟩ := except_bind_ok.mp h
      have hdef : typeDefForPrefix path rootType = sanitizeTypedef path := by
        refine if_neg ?_
        rintro rfl
        obtain ⟨rest, hrest⟩ := hpath
        cases hrest
      obtain ⟨hgrows, hhas, i, rfl⟩ := recursivelyAddTypesToRoot_ok hkeys
        (fun field hfield => (ih field hfield).2) (.inr hpath)
        (hdef ▸ named_sanitizeTypedef hpath) hadd
      rw [hdef] at hreturn hhas
      dsimp only at hreturn
      rw [sanitizeTypedef_indexed hpath] at hreturn
      cases hreturn
      refine ⟨hgrows, rfl, ?_⟩
      rintro name ⟨⟩
      exact hhas
    exact ⟨helement true, helement false⟩

/-- A message gets an entry that describes it. -/
theorem addMsgTypesToRoot_ok {msgField : String} {msg : Option Json} {entries : List TypeField}
    (hplain : ∀ v, msg = some v → v.Plain) (htx : get types txField = some entries)
    (h : addMsgTypesToRoot types msgField msg = .ok types') :
    ∃ v name, msg = some v ∧ Extends types types' ∧
      get types' txField = some (entries ++ [⟨msgField, name⟩]) ∧ HasType types' v name := by
  unfold addMsgTypesToRoot at h
  split at h
  case h_2 => cases h
  obtain ⟨rootType, hroot, h⟩ := except_bind_ok.mp h
  obtain ⟨⟨name, types₁⟩, hadd, hreturn⟩ := except_bind_ok.mp h
  cases hreturn
  have hnamed : Named (typeDefForPrefix rootPrefix rootType) := by
    unfold msgRootType at hroot
    dsimp only at hroot
    split at hroot
    · cases hroot
    · cases hroot
      have htype : Named typePrefix := ⟨_, rfl⟩
      rw [typeDefForPrefix, if_pos rfl]
      exact htype.append _
  cases hplain _ rfl with
  | object _ hkeys _ hfields =>
    obtain ⟨hgrows, hhas, -⟩ := recursivelyAddTypesToRoot_ok hkeys
      (fun field hfield => (describes rootType (hfields field hfield)).2) (.inl rfl) hnamed hadd
    have hextends : Extends types₁ (addMsgTypeDefToTxSchema types₁ msgField name) := by
      intro name' hname ts hts
      rw [addMsgTypeDefToTxSchema, get_set, if_neg hname.symm, hts]
    refine ⟨_, name, rfl, fun name' hname ts hts =>
      hextends name' hname ts (hgrows name' ts hts), ?_, hhas.mono hextends⟩
    rw [addMsgTypeDefToTxSchema, get_set, if_pos rfl, hgrows _ _ htx]
    rfl

/-- **The schema is faithful**, for plain keys: every message has a type that describes it, and
definitions are kept. -/
theorem createEIP712Types_faithful {payload : Fields} {n : ℕ} {types : Types}
    (hplain : (Json.object payload).Plain) (h : createEIP712Types payload n = .ok types) :
    (∃ type : ℕ → String,
      get types txField = some (txFields ++
        (List.range n).map fun i => ⟨msgFieldForIndex i, type i⟩) ∧
      ∀ i < n, ∃ msg, get payload (msgFieldForIndex i) = some msg ∧ HasType types msg (type i)) ∧
    ∀ k ≤ n, ∃ earlier, createEIP712Types payload k = .ok earlier ∧ Extends earlier types := by
  induction n generalizing types with
  | zero =>
    refine ⟨⟨fun _ => "", ?_, by simp⟩, fun k hk => ?_⟩
    · cases h
      rfl
    · cases Nat.le_zero.mp hk
      exact ⟨types, h, fun _ _ _ hts => hts⟩
  | succ n ih =>
    have hall := h
    obtain ⟨before, hbefore, hadd⟩ := except_bind_ok.mp h
    obtain ⟨⟨type, htx, hmsgs⟩, hkept⟩ := ih hbefore
    have hmsg : ∀ v, get payload (msgFieldForIndex n) = some v → v.Plain := by
      intro v hv
      cases hplain with
      | object _ _ _ hfields => exact hfields _ (mem_of_get_eq_some hv)
    obtain ⟨v, name, hv, hextends, htx', hhas⟩ := addMsgTypesToRoot_ok hmsg htx hadd
    refine ⟨⟨Function.update type n name, ?_, fun i hi => ?_⟩, fun k hk => ?_⟩
    · have hsame : (List.range n).map (fun i => TypeField.mk (msgFieldForIndex i)
          (Function.update type n name i)) =
          (List.range n).map fun i => TypeField.mk (msgFieldForIndex i) (type i) := by
        refine List.map_congr_left fun i hi => ?_
        rw [Function.update_of_ne (List.mem_range.mp hi).ne]
      rw [List.range_succ, List.map_append, hsame, ← List.append_assoc, htx']
      simp
    · rcases Nat.lt_succ_iff_lt_or_eq.mp hi with hi | rfl
      · obtain ⟨msg, hget, hold⟩ := hmsgs i hi
        rw [Function.update_of_ne hi.ne]
        exact ⟨msg, hget, hold.mono hextends⟩
      · rw [Function.update_self]
        exact ⟨v, hv, hhas⟩
    · rcases Nat.le_succ_iff.mp hk with hk | rfl
      · obtain ⟨earlier, hearlier, hext⟩ := hkept k hk
        exact ⟨earlier, hearlier, fun name hname ts hts =>
          hextends name hname ts (hext name hname ts hts)⟩
      · exact ⟨types, hall, fun _ _ _ hts => hts⟩

/-- Plain keys can be checked. -/
theorem plainKeys {fields : Fields}
    (h : (fields.all fun field => field.1.toList.all fun c => c.isAlphanum || c == '_') = true) :
    ∀ field ∈ fields, PlainKey field.1 := by
  intro field hfield c hc
  have hchar := List.all_eq_true.mp (List.all_eq_true.mp h field hfield) c hc
  simpa using hchar

/-- A payload with one message. -/
def samplePayload (value : Json) : Fields :=
  [("msg0", .object [("type", .string "cosmos-sdk/MsgSend"), ("value", value)])]

/-- A message with an array. -/
theorem createEIP712Types_faithful_sample :
    ∃ types, createEIP712Types (samplePayload (.object [("amount", .array [.number "1"])])) 1 =
        .ok types ∧
      ∃ name msg, get (samplePayload (.object [("amount", .array [.number "1"])])) "msg0" =
        some msg ∧ HasType types msg name := by
  have hplain : (Json.object (samplePayload
      (.object [("amount", .array [.number "1"])]))).Plain := by
    refine .object _ (List.nodup_singleton _) (plainKeys rfl) (List.forall_mem_singleton.mpr ?_)
    refine .object _ (by decide) (plainKeys rfl) (List.forall_mem_cons.mpr ⟨.string _, ?_⟩)
    refine List.forall_mem_singleton.mpr (.object _ (List.nodup_singleton _) (plainKeys rfl) ?_)
    exact List.forall_mem_singleton.mpr (.array _ (List.forall_mem_singleton.mpr (.number _)))
  obtain ⟨types, htypes⟩ : ∃ types, createEIP712Types
    (samplePayload (.object [("amount", .array [.number "1"])])) 1 = .ok types := ⟨_, rfl⟩
  obtain ⟨⟨type, -, hmsgs⟩, -⟩ := createEIP712Types_faithful hplain htypes
  obtain ⟨msg, hmsg, hhas⟩ := hmsgs 0 Nat.one_pos
  exact ⟨types, htypes, type 0, msg, hmsg, hhas⟩

/-- **An array that starts with an empty array** is not listed. -/
theorem createEIP712Types_nestedArray :
    ∃ types, createEIP712Types (samplePayload (.array [.array []])) 1 = .ok types ∧
      get types "TypeMsgSend0" = some [⟨"type", "string"⟩] := ⟨_, rfl, rfl⟩

end TacEvm.Eip712
