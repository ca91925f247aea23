import JavaSurvey.Syntax.Draft
import Mathlib.Data.List.Basic

/-!
# Drafts

A draft is a row of tables that refer to each other by number. What it stands for can be read off
once every reference goes to a later table.

1. `SlotTable.addAll_cons`: what is added to a table is divided between its first slot and the
   others;
2. `SlotTable.elements_addAll`: so a table has its children in slot order, however they come;
3. `Draft.tells_children`: reading the tables from the last to the first finds every child read;
4. `Draft.Adds.trans` and `Draft.Adds.node`: what is added to a draft, piece by piece.
-/

namespace JavaSurvey

/-- The children of the first slot come first, then the others, slot by slot. -/
theorem regroup_cons (e : Element) (rest : List Element) :
    regroup (e :: rest) =
      e :: (rest.filter (·.slot == e.slot) ++ regroup (rest.filter (!·.slot == e.slot))) := by
  have slots : slotsOf (e :: rest) = e.slot :: slotsOf (rest.filter (!·.slot == e.slot)) := by
    rw [slotsOf, slotsOf, List.map_cons, List.eraseDups_cons, List.filter_map]
    rfl
  rw [regroup, slots, List.flatMap_cons, List.filter_cons_of_pos (by simp), List.cons_append,
    regroup]
  congr 2
  refine List.flatMap_congr fun s member => ?_
  have other : s ≠ e.slot := by
    simp only [slotsOf, List.mem_eraseDups, List.mem_map, List.mem_filter] at member
    obtain ⟨d, ⟨-, different⟩, rfl⟩ := member
    simpa using different
  rw [List.filter_cons_of_neg (by simpa using Ne.symm other), List.filter_filter]
  refine List.filter_congr fun d _ => ?_
  by_cases here : d.slot = s
  · simp [here, other]
  · simp [here]

/-! ## Tables -/

@[simp] theorem SlotEntry.slot_element (children : Array (List Element)) (slot : String)
    (entry : SlotEntry) : (entry.element children slot).slot = slot := by
  cases entry <;> rfl

/-- The number of the table that a child refers to. -/
def SlotEntry.table? : SlotEntry → Option Nat
  | token _ => none
  | node _ table => some table

namespace SlotTable

/-- A table with children that are added one after the other, each to its slot. -/
def addAll (table : SlotTable) (items : List (String × SlotEntry)) : SlotTable :=
  items.foldl (fun table item => SlotTable.add item.1 item.2 table) table

/-- The first slot of a table takes what is added to it, and the others the rest. -/
theorem addAll_cons (slot : String) (entries : Array SlotEntry) (table : SlotTable)
    (items : List (String × SlotEntry)) :
    addAll ((slot, entries) :: table) items =
      (slot, entries ++ ((items.filter (·.1 == slot)).map Prod.snd).toArray) ::
        addAll table (items.filter (!·.1 == slot)) := by
  induction items generalizing entries table with
  | nil => simp [addAll]
  | cons item rest ih =>
    rw [addAll, List.foldl_cons, ← addAll, add]
    by_cases here : slot = item.1
    · subst here
      rw [if_pos rfl, ih, List.filter_cons_of_pos (by simp), List.filter_cons_of_neg (by simp),
        List.map_cons]
      simp
    · rw [if_neg here, ih, List.filter_cons_of_neg (by simpa using Ne.symm here),
        List.filter_cons_of_pos (by simpa using Ne.symm here)]
      rfl

/-- However children are added to a table, it has them in slot order. -/
theorem elements_addAll (children : Array (List Element)) :
    ∀ items : List (String × SlotEntry),
      elements children (addAll [] items) =
        regroup (items.map fun item => item.2.element children item.1)
  | [] => rfl
  | (slot, entry) :: rest => by
    -- What is not in the first slot makes up a table of its own, with fewer children.
    have others := elements_addAll children (rest.filter (!·.1 == slot))
    have divided : addAll [] ((slot, entry) :: rest) =
        (slot, #[entry] ++ ((rest.filter (·.1 == slot)).map Prod.snd).toArray) ::
          addAll [] (rest.filter (!·.1 == slot)) := addAll_cons slot #[entry] [] rest
    have same : (rest.filter (·.1 == slot)).map (fun item => item.2.element children slot) =
        (rest.filter (·.1 == slot)).map fun item => item.2.element children item.1 :=
      List.map_congr_left fun item member => by
        rw [beq_iff_eq.mp (List.mem_filter.mp member).2]
    rw [elements] at others
    rw [divided, elements, List.flatMap_cons, others, List.map_cons, regroup_cons, List.filter_map,
      List.filter_map]
    simp only [SlotEntry.slot_element, Function.comp_def, Array.toList_append, List.map_append,
      List.map_map, ← same]
    rfl
termination_by items => items.length
decreasing_by
  exact Nat.lt_succ_of_le (List.length_filter_le _ rest)

/-- The tables that a table refers to. -/
def refs (table : SlotTable) : List Nat :=
  table.flatMap fun slot => slot.2.toList.filterMap SlotEntry.table?

theorem mem_refs_add {slot : String} {entry : SlotEntry} {table : SlotTable} {r : Nat} :
    r ∈ refs (add slot entry table) ↔ r ∈ refs table ∨ entry.table? = some r := by
  induction table with
  | nil => simp [add, refs]
  | cons first rest ih =>
    obtain ⟨s, entries⟩ := first
    rw [add]
    simp only [refs] at ih
    split
    · have own : r ∈ [entry].filterMap SlotEntry.table? ↔ entry.table? = some r := by simp
      simp only [refs, List.flatMap_cons, List.mem_append, Array.toList_push,
        List.filterMap_append, own]
      exact or_right_comm
    · simp only [refs, List.flatMap_cons, List.mem_append, ih, or_assoc]

theorem mem_refs_addAll {table : SlotTable} {items : List (String × SlotEntry)} {r : Nat} :
    r ∈ refs (addAll table items) ↔
      r ∈ refs table ∨ ∃ item ∈ items, item.2.table? = some r := by
  induction items generalizing table with
  | nil => simp [addAll]
  | cons item rest ih =>
    rw [addAll, List.foldl_cons, ← addAll, ih, mem_refs_add]
    simp [or_assoc]

/-- The elements in a table depend only on the tables that it refers to. -/
theorem elements_congr {table : SlotTable} {children others : Array (List Element)}
    (same : ∀ r ∈ refs table, children[r]? = others[r]?) :
    elements children table = elements others table := by
  refine List.flatMap_congr fun slot inTable => List.map_congr_left fun entry inSlot => ?_
  cases entry with
  | token t => rfl
  | node name r =>
    have referred : r ∈ refs table :=
      List.mem_flatMap.mpr ⟨slot, inTable, List.mem_filterMap.mpr ⟨_, inSlot, rfl⟩⟩
    rw [SlotEntry.element, SlotEntry.element, same r referred]

end SlotTable

/-! ## Reading the tables -/

namespace Draft

/-- The children are those in the tables from `first` up to, and without, `last`. -/
def Tells (draft : Draft) (first last : Nat) (children : Array (List Element)) : Prop :=
  ∀ k, first ≤ k → k < last →
    children[k]?.getD [] = SlotTable.elements children (draft[k]?.getD [])

theorem getElem?_fill (draft : Draft) {i k : Nat} (later : i ≤ k)
    (children : Array (List Element)) : (draft.fill i children)[k]? = children[k]? := by
  induction i generalizing children with
  | zero => rfl
  | succ i ih =>
    rw [fill, ih (Nat.le_of_succ_le later),
      Array.getElem?_setIfInBounds_ne (Nat.ne_of_lt later)]

/-- Where every reference goes to a later table, the children that it needs are there before. -/
theorem tells_fill {draft : Draft} (ordered : ∀ k, ∀ r ∈ SlotTable.refs (draft[k]?.getD []), k < r)
    {i : Nat} {children : Array (List Element)} (inside : i ≤ children.size) :
    draft.Tells 0 i (draft.fill i children) := by
  induction i generalizing children with
  | zero => exact fun k _ before => absurd before (Nat.not_lt_zero k)
  | succ i ih =>
    intro k _ before
    rw [fill]
    rcases Nat.lt_succ_iff_lt_or_eq.mp before with earlier | rfl
    · exact ih (by simpa using Nat.le_of_succ_le inside) k (Nat.zero_le k) earlier
    · rw [getElem?_fill draft (Nat.le_refl k), Array.getElem?_setIfInBounds_self_of_lt inside,
        Option.getD_some]
      refine SlotTable.elements_congr fun r referred => ?_
      have later := ordered k r referred
      rw [getElem?_fill draft (Nat.le_of_lt later),
        Array.getElem?_setIfInBounds_ne (Nat.ne_of_lt later)]

theorem tells_children {draft : Draft}
    (ordered : ∀ k, ∀ r ∈ SlotTable.refs (draft[k]?.getD []), k < r) :
    draft.Tells 0 draft.size draft.children :=
  tells_fill ordered (Nat.le_of_eq Array.size_replicate.symm)

/-! ## Adding to a draft -/

/-- A draft comes from another one by adding children to a table, whatever new tables they need.
Elements are what the children stand for. -/
structure Adds (old new : Draft) (table : Nat) (items : List (String × SlotEntry))
    (es : List Element) : Prop where
  size_le : old.size ≤ new.size
  same : ∀ k < old.size, k ≠ table → new[k]? = old[k]?
  own : new[table]?.getD [] = SlotTable.addAll (old[table]?.getD []) items
  /-- The children refer to new tables. -/
  fresh : ∀ item ∈ items, ∀ r ∈ item.2.table?, old.size ≤ r
  /-- The new tables refer to later ones. -/
  ordered : ∀ k, old.size ≤ k → ∀ r ∈ SlotTable.refs (new[k]?.getD []), k < r
  stand : ∀ children, new.Tells old.size new.size children →
    items.map (fun item => item.2.element children item.1) = es

variable {old mid new draft : Draft} {table : Nat} {items others : List (String × SlotEntry)}
  {es fs : List Element}

theorem Adds.none (draft : Draft) (table : Nat) : draft.Adds draft table [] [] where
  size_le := Nat.le_refl _
  same _ _ _ := rfl
  own := rfl
  fresh := nofun
  ordered k past r referred := by
    rw [Array.getElem?_eq_none past] at referred
    cases referred
  stand _ _ := rfl

theorem Adds.trans (inside : table < old.size) (first : old.Adds mid table items es)
    (second : mid.Adds new table others fs) : old.Adds new table (items ++ others) (es ++ fs) := by
  have kept : ∀ k, old.size ≤ k → k < mid.size → new[k]? = mid[k]? := fun k past before =>
    second.same k before (Nat.ne_of_gt (Nat.lt_of_lt_of_le inside past))
  constructor
  · exact Nat.le_trans first.size_le second.size_le
  · intro k before other
    rw [second.same k (Nat.lt_of_lt_of_le before first.size_le) other, first.same k before other]
  · rw [second.own, first.own, SlotTable.addAll, SlotTable.addAll, SlotTable.addAll,
      List.foldl_append]
  · intro item member r referred
    rcases List.mem_append.mp member with inFirst | inSecond
    · exact first.fresh item inFirst r referred
    · exact Nat.le_trans first.size_le (second.fresh item inSecond r referred)
  · intro k past r referred
    by_cases before : k < mid.size
    · rw [kept k past before] at referred
      exact first.ordered k past r referred
    · exact second.ordered k (Nat.le_of_not_lt before) r referred
  · intro children tells
    have tellsFirst : mid.Tells old.size mid.size children := fun k past before => by
      rw [← kept k past before]
      exact tells k past (Nat.lt_of_lt_of_le before second.size_le)
    have tellsSecond : new.Tells mid.size new.size children := fun k past before =>
      tells k (Nat.le_trans first.size_le past) before
    rw [List.map_append, first.stand children tellsFirst, second.stand children tellsSecond]

theorem getElem?_addTo_ne {k : Nat} (other : k ≠ table) (slot : String) (entry : SlotEntry) :
    (draft.addTo table slot entry)[k]? = draft[k]? := by
  rw [addTo, Array.getElem?_modify, if_neg (Ne.symm other)]

theorem getElem?_addTo (inside : table < draft.size) (slot : String) (entry : SlotEntry) :
    ((draft.addTo table slot entry)[table]?).getD [] =
      SlotTable.add slot entry (draft[table]?.getD []) := by
  rw [addTo, Array.getElem?_modify, if_pos rfl, Array.getElem?_eq_getElem inside]
  rfl

@[simp] theorem size_addTo (draft : Draft) (table : Nat) (slot : String) (entry : SlotEntry) :
    (draft.addTo table slot entry).size = draft.size :=
  Array.size_modify

theorem Adds.token (inside : table < draft.size) (slot : String) (t : Token) :
    draft.Adds (draft.addTo table slot (.token t)) table [(slot, .token t)] [.token slot t] where
  size_le := Nat.le_of_eq (draft.size_addTo table slot _).symm
  same k _ other := getElem?_addTo_ne other slot _
  own := getElem?_addTo inside slot _
  fresh := by simp [SlotEntry.table?]
  ordered k past r referred := by
    rw [Array.getElem?_eq_none (by simpa using past)] at referred
    cases referred
  stand _ _ := rfl

/-- A node whose children are added to a table of its own stands for the node with these
children. -/
theorem Adds.node (inside : table < draft.size) {slot name : String}
    (below : (draft.openNode table slot name).Adds new draft.size items es) :
    draft.Adds new table [(slot, .node name draft.size)] [.node slot name (regroup es)] := by
  have size : (draft.openNode table slot name).size = draft.size + 1 := by simp [openNode]
  have opened : ∀ k < draft.size, (draft.openNode table slot name)[k]? =
      (draft.addTo table slot (.node name draft.size))[k]? := fun k before => by
    rw [openNode, Array.getElem?_push, size_addTo, if_neg (Nat.ne_of_lt before)]
  have empty : (draft.openNode table slot name)[draft.size]?.getD [] = [] := by
    rw [openNode, Array.getElem?_push, size_addTo, if_pos rfl, Option.getD_some]
  have kept : ∀ k < draft.size, new[k]? = (draft.addTo table slot (.node name draft.size))[k]? :=
    fun k before => by
      rw [below.same k (by omega) (Nat.ne_of_lt before), opened k before]
  have children : new[draft.size]?.getD [] = SlotTable.addAll [] items := by
    rw [below.own, empty]
  constructor
  · exact Nat.le_trans (by omega) below.size_le
  · intro k before other
    rw [kept k before, getElem?_addTo_ne other]
  · rw [kept table inside, getElem?_addTo inside]
    rfl
  · simp [SlotEntry.table?]
  · intro k past r referred
    rcases Nat.lt_or_eq_of_le past with later | rfl
    · exact below.ordered k (by omega) r referred
    · -- The table of the node itself has only what was added below.
      rw [children, SlotTable.mem_refs_addAll] at referred
      rcases referred with none | ⟨item, member, refers⟩
      · cases none
      · have := below.fresh item member r refers
        omega
  · intro all tells
    have tellsBelow : new.Tells (draft.openNode table slot name).size new.size all :=
      fun k past before => tells k (by omega) before
    have own := tells draft.size (Nat.le_refl _) (Nat.lt_of_lt_of_le (by omega) below.size_le)
    rw [children, SlotTable.elements_addAll, below.stand all tellsBelow] at own
    simp [SlotEntry.element, own]

end Draft

end JavaSurvey
