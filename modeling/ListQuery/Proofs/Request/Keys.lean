import Mathlib.Tactic.SplitIfs
import ListQuery.Proofs.Request.Items

/-!
# Keys of items

The key of an item is a name with parts in brackets. A key that is made of word characters and parts
without brackets is taken apart again, so what an item does can be said in terms of the names it is
made of instead of its spelling.

* `parseKey?_bracketed` — keys that are made of names;
* `addItem_of_target` — items that filter a field;
* `addItem_plain`, `addItem_fields`, `addItem_append` — the other items;
* `added_addItem` — everything that an item can do;
* `hasPlainFields_ofItems` — the names of the fields that items filter.
-/

namespace ListQuery

open Text FilterParams

instance (name : String) : Decidable (IsPlain name) :=
  List.decidableBAll (fun c => isBracket c = false) name.toList

/-- A name that comes back from between brackets. -/
structure IsName (name : String) : Prop where
  trimmed : trim name = name
  plain   : IsPlain name

theorem isName_trim {name : String} (h : IsPlain name) : IsName (trim name) :=
  ⟨trim_trim name, isPlain_trim h⟩

/-- A name of small letters and underscores, as all parameters have. -/
structure IsParameter (name : String) : Prop where
  ne      : name ≠ ""
  letters : name.toList.all (fun c => c.isLower || c == '_') = true

instance (name : String) : Decidable (IsParameter name) :=
  decidable_of_iff (name ≠ "" ∧ name.toList.all (fun c => c.isLower || c == '_') = true)
    ⟨fun h => ⟨h.1, h.2⟩, fun h => ⟨h.ne, h.letters⟩⟩

theorem isWord_of_isLower {c : Char} (h : c.isLower = true) : isWord c = true := by
  have hval : (decide (c.val ≥ 'a'.val) && decide (c.val ≤ 'z'.val)) = true := h
  rw [Bool.and_eq_true, decide_eq_true_iff, decide_eq_true_iff, ge_iff_le,
    UInt32.le_iff_toNat_le, UInt32.le_iff_toNat_le] at hval
  have hrange : (0x61, 0x7A) ∈ wordRanges := .tail _ (.tail _ (.tail _ (.head _)))
  exact inRanges_iff.mpr ⟨_, hrange, hval⟩

theorem isWord_underscore : isWord '_' = true :=
  inRanges_iff.mpr ⟨(0x5F, 0x5F), .tail _ (.tail _ (.head _)), by decide⟩

theorem IsParameter.isWord {name : String} (h : IsParameter name) :
    ∀ c ∈ name.toList, Text.isWord c = true := by
  intro c hc
  have hletter := List.all_eq_true.mp h.letters c hc
  rw [Bool.or_eq_true, beq_iff_eq] at hletter
  rcases hletter with hlower | rfl
  · exact isWord_of_isLower hlower
  · exact isWord_underscore

namespace ItemParams

-- ---------------------------------------------------------------------------
-- Taking a key apart
-- ---------------------------------------------------------------------------

/-- The brackets of a key. -/
def bracketed (path : List String) : List Char :=
  path.flatMap fun part => '[' :: part.toList ++ [']']

theorem bracketChars?_part {part : List Char} (h : ∀ c ∈ part, isBracket c = false)
    (rest : List Char) :
    bracketChars? true (part ++ ']' :: rest) = (bracketChars? false rest).map (part :: ·) := by
  induction part with
  | nil => rfl
  | cons c part ih =>
    obtain ⟨hc, hpart⟩ := List.forall_mem_cons.mp h
    simp only [isBracket, Bool.or_eq_false_iff, beq_eq_false_iff_ne] at hc
    rw [List.cons_append, bracketChars?, if_pos rfl, if_neg hc.2, if_neg hc.1, ih hpart,
      Option.map_map]
    rfl

theorem bracketChars?_bracketed {path : List String} (h : ∀ part ∈ path, IsPlain part) :
    bracketChars? false (bracketed path) = some (path.map String.toList) := by
  induction path with
  | nil => rfl
  | cons part path ih =>
    obtain ⟨hpart, hpath⟩ := List.forall_mem_cons.mp h
    have hchars : bracketed (part :: path) = '[' :: (part.toList ++ ']' :: bracketed path) := by
      simp [bracketed]
    rw [hchars, bracketChars?, if_neg Bool.false_ne_true, if_pos rfl, bracketChars?_part hpart,
      ih hpath]
    rfl

/-- The name of a parameter and parts without brackets are read from the key they make. -/
theorem parseKey?_bracketed {key name : String} {path : List String} (hname : IsParameter name)
    (hpath : ∀ part ∈ path, IsPlain part) (hkey : key.toList = name.toList ++ bracketed path) :
    parseKey? key = some (name, path) := by
  have hword := hname.isWord
  have hopen : (bracketed path).takeWhile isWord = [] ∧
      (bracketed path).dropWhile isWord = bracketed path := by
    have hbracket : isWord '[' = false := by decide +kernel
    cases path with
    | nil => exact ⟨rfl, rfl⟩
    | cons part path => simp [bracketed, hbracket]
  have hne' : name.toList ≠ [] := fun h => hname.ne (String.toList_eq_nil_iff.mp h)
  have hback : (path.map String.toList).map String.ofList = path := by
    simp [Function.comp_def]
  rw [parseKey?, hkey, List.takeWhile_append_of_pos hword, List.dropWhile_append_of_pos hword,
    hopen.1, hopen.2, List.append_nil, if_neg hne', bracketChars?_bracketed hpath, Option.map_some,
    hback, String.ofList_toList]

-- ---------------------------------------------------------------------------
-- Items that filter
-- ---------------------------------------------------------------------------

/-- What an item adds to what is there of its field: an operand for an operator, or a bare one. -/
def addPart (existing : Option FieldFilter) (part : Option String × String) : FieldFilter :=
  match part.1 with
  | none    => addBare existing part.2
  | some op => addOperand existing op part.2

/-- The field that a key filters, and the operator if it names one. -/
def filterTarget? (key : String) : Option (String × Option String) :=
  match parseKey? key with
  | none              => none
  | some (name, path) =>
    if name = "filter" then
      match path.map trim with
      | [field]     => if field = "" then none else some (field, none)
      | [field, op] => if field = "" then none else some (field, some op)
      | _           => none
    else none

variable {p : ItemParams} {key field v : String} {op : Option String}

theorem filterTarget?_eq_some :
    filterTarget? key = some (field, op) ↔
      ∃ path, parseKey? key = some ("filter", path) ∧ path.map trim = field :: op.toList ∧
        field ≠ "" := by
  constructor
  · intro h
    unfold filterTarget? at h
    split at h
    case h_1 => cases h
    case h_2 name path hkey =>
      split at h
      case isFalse => cases h
      case isTrue hname =>
        subst hname
        split at h
        case h_1 f hpath =>
          obtain ⟨hne, heq⟩ := Option.ite_none_left_eq_some.mp h
          obtain ⟨rfl, rfl⟩ := Prod.mk.inj (Option.some.inj heq)
          exact ⟨path, hkey, hpath, hne⟩
        case h_2 f o hpath =>
          obtain ⟨hne, heq⟩ := Option.ite_none_left_eq_some.mp h
          obtain ⟨rfl, rfl⟩ := Prod.mk.inj (Option.some.inj heq)
          exact ⟨path, hkey, hpath, hne⟩
        case h_3 => cases h
  · rintro ⟨path, hkey, hpath, hne⟩
    cases op <;> simp [filterTarget?, hkey, hpath, hne]

theorem isName_of_target (h : filterTarget? key = some (field, op)) :
    IsName field ∧ field ≠ "" ∧ ∀ o ∈ op, IsName o := by
  obtain ⟨path, hkey, hpath, hne⟩ := filterTarget?_eq_some.mp h
  have hparts : ∀ part ∈ field :: op.toList, IsName part := by
    intro part hpart
    rw [← hpath] at hpart
    obtain ⟨part, hmem, rfl⟩ := List.mem_map.mp hpart
    exact isName_trim (isPlain_of_parseKey hkey part hmem)
  exact ⟨hparts _ List.mem_cons_self, hne, fun o ho =>
    hparts o (List.mem_cons_of_mem _ (Option.mem_toList.mpr ho))⟩

/-- An item that filters a field changes what is there of the field, and nothing else. -/
theorem addItem_of_target (h : filterTarget? key = some (field, op)) (p : ItemParams) (v : String) :
    p.addItem (key, v) =
      { p with filter := p.filter.put field (addPart (p.filter.get? field) (op, v)) } := by
  obtain ⟨path, hkey, hpath, hne⟩ := filterTarget?_eq_some.mp h
  have hsome : path ≠ [] := by
    rintro rfl
    cases hpath
  obtain ⟨part, parts, rfl⟩ := List.exists_cons_of_ne_nil hsome
  simp only [addItem, hkey, if_pos, addFilter, hpath]
  cases op <;> simp [hne, addPart]

/-- The key of an item that filters. -/
def filterKey (field : String) : Option String → String
  | none    => "filter[" ++ field ++ "]"
  | some op => "filter[" ++ field ++ "]" ++ "[" ++ op ++ "]"

theorem filterTarget?_filterKey (hfield : IsName field) (hne : field ≠ "")
    (hop : ∀ o ∈ op, IsName o) : filterTarget? (filterKey field op) = some (field, op) := by
  have hnames : ∀ part ∈ field :: op.toList, IsName part := by
    intro part hpart
    rcases List.mem_cons.mp hpart with rfl | hpart
    · exact hfield
    · exact hop part (Option.mem_toList.mp hpart)
  have hchars : (filterKey field op).toList =
      "filter".toList ++ bracketed (field :: op.toList) := by
    cases op <;> simp [filterKey, bracketed]
  have htrim : (field :: op.toList).map trim = field :: op.toList :=
    (List.map_congr_left fun part hpart => (hnames part hpart).trimmed).trans (List.map_id _)
  exact filterTarget?_eq_some.mpr ⟨_, parseKey?_bracketed (by decide)
    (fun part hpart => (hnames part hpart).plain) hchars, htrim, hne⟩

-- ---------------------------------------------------------------------------
-- The other items
-- ---------------------------------------------------------------------------

theorem addItem_plain {name : String} (hname : IsParameter name) (p : ItemParams) (v : String) :
    p.addItem (name, v) = p.addPlain name v := by
  have hkey : parseKey? name = some (name, []) :=
    parseKey?_bracketed hname (List.forall_mem_nil _) (List.append_nil _).symm
  simp only [addItem, hkey]

theorem parseKey?_keyed (name : String) {inner : String} (hname : IsParameter name)
    (hinner : IsPlain inner) :
    parseKey? (name ++ "[" ++ inner ++ "]") = some (name, [inner]) :=
  parseKey?_bracketed hname (by simpa using hinner) (by simp [bracketed])

theorem addItem_fields {inner : String} (hinner : IsPlain inner) (p : ItemParams) (v : String) :
    p.addItem ("fields" ++ "[" ++ inner ++ "]", v) =
      { p with fields := p.fields.put inner v } := by
  simp only [addItem, parseKey?_keyed "fields" (by decide) hinner]
  rfl

theorem addItem_append {inner : String} (hinner : IsPlain inner) (p : ItemParams) (v : String) :
    p.addItem ("append" ++ "[" ++ inner ++ "]", v) =
      { p with append := p.append.put inner v } := by
  simp only [addItem, parseKey?_keyed "append" (by decide) hinner]
  rfl

-- ---------------------------------------------------------------------------
-- What an item can do
-- ---------------------------------------------------------------------------

/-- What becomes of parameters to which an item is added. -/
inductive Added (p : ItemParams) (key v : String) : ItemParams → Prop
  | filtered {field : String} {op : Option String} (h : filterTarget? key = some (field, op)) :
      Added p key v
        { p with filter := p.filter.put field (addPart (p.filter.get? field) (op, v)) }
  | warned (h : filterTarget? key = none) (message : String) : Added p key v (p.warn message)
  | plain (h : filterTarget? key = none) (name : String) : Added p key v (p.addPlain name v)
  | fields (h : filterTarget? key = none) {inner : String} (hinner : IsPlain inner) :
      Added p key v { p with fields := p.fields.put inner v }
  | append (h : filterTarget? key = none) {inner : String} (hinner : IsPlain inner) :
      Added p key v { p with append := p.append.put inner v }

theorem added_addItem (p : ItemParams) (key v : String) : Added p key v (p.addItem (key, v)) := by
  cases htarget : filterTarget? key with
  | some target =>
    rw [addItem_of_target htarget]
    exact .filtered htarget
  | none =>
    unfold addItem
    dsimp only
    split
    case h_1 => exact .warned htarget _
    case h_2 name hkey => exact .plain htarget name
    case h_3 name path _ hkey =>
      split
      case isTrue hname =>
        subst hname
        have hwarn : p.addFilter key path v = p.warn (malformedFilter key) := by
          simp only [filterTarget?, hkey, if_pos] at htarget
          unfold addFilter
          split <;> simp_all
        rw [hwarn]
        exact .warned htarget _
      case isFalse =>
        split
        case h_1 inner _ =>
          have hinner : IsPlain inner := isPlain_of_parseKey hkey inner List.mem_cons_self
          split_ifs
          · exact .fields htarget hinner
          · exact .append htarget hinner
          · exact .warned htarget _
        case h_2 => exact .warned htarget _

/-- The filters are changed by no other item. -/
theorem Added.filter_eq {p q : ItemParams} {key v : String} (h : Added p key v q)
    (hkey : filterTarget? key = none) : q.filter = p.filter := by
  cases h with
  | filtered hsome => rw [hkey] at hsome; cases hsome
  | warned => rfl
  | plain _ name => exact filter_addPlain p name v
  | fields => rfl
  | append => rfl

/-- One item keeps the names of fields free of brackets. -/
theorem Added.hasPlainFields {p q : ItemParams} {key v : String} (hadded : Added p key v q)
    (h : p.HasPlainFields) : q.HasPlainFields := by
  cases hadded with
  | filtered htarget => exact hasPlainFields_put h (isName_of_target htarget).1.plain _
  | plain _ name =>
    unfold HasPlainFields
    rw [filter_addPlain]
    exact h
  | warned | fields | append => exact h

/-- So do all items. -/
theorem hasPlainFields_ofItems (items : List (String × String)) :
    (ofItems items).HasPlainFields := by
  have hempty : HasPlainFields {} := List.forall_mem_nil _
  exact List.foldlRecOn items addItem hempty fun p hp _ _ => (added_addItem p _ _).hasPlainFields hp

end ItemParams

end ListQuery
