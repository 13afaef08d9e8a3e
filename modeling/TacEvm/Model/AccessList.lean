import TacEvm.Model.Basic

/-!
# The access list

`addresses` maps an address to an index into `slots`, or to no index (`-1` in the source). Deleting
takes back additions in the opposite order; an index out of range is a Go panic, here `none`.

SOURCE: x/vm/statedb/access_list.go
-/

namespace TacEvm

structure AccessList where
  addresses : Address → Option (Option ℕ)
  slots : List (Finset Hash)

def newAccessList : AccessList where
  addresses := fun _ => none
  slots := []

namespace AccessList

variable (al : AccessList)

variable (addr : Address)

def containsAddress : Bool := (al.addresses addr).isSome

variable (slot : Hash)

/-- Whether the address, and whether the slot, is present. -/
def contains : Bool × Bool :=
  match al.addresses addr with
  | none => (false, false)
  | some none => (true, false)
  | some (some idx) =>
    match al.slots[idx]? with
    | some slotmap => (true, decide (slot ∈ slotmap))
    | none => (true, false)

def setAddress (idx : Option (Option ℕ)) : AccessList :=
  { al with addresses := Function.update al.addresses addr idx }

/-- The new list and whether it changed. -/
def addAddress : AccessList × Bool :=
  if (al.addresses addr).isSome then (al, false)
  else (al.setAddress addr (some none), true)

/-- `accessList.AddSlot`, for an address without slots. -/
def openSlots : AccessList :=
  { addresses := Function.update al.addresses addr (some (some al.slots.length))
    slots := al.slots ++ [{slot}] }

/-- The new list, whether the address and whether the slot was
added. -/
def addSlot : Option (AccessList × Bool × Bool) :=
  match al.addresses addr with
  | none => some (al.openSlots addr slot, true, true)
  | some none => some (al.openSlots addr slot, false, true)
  | some (some idx) =>
    match al.slots[idx]? with
    | none => none
    | some slotmap =>
      if slot ∈ slotmap then some (al, false, false)
      else some ({ al with slots := al.slots.set idx (insert slot slotmap) }, false, true)

def deleteSlot : Option AccessList :=
  match al.addresses addr with
  | some (some idx) =>
    match al.slots[idx]? with
    | none => none
    | some slotmap =>
      if slotmap.erase slot = ∅ then
        some { addresses := Function.update al.addresses addr (some none)
               slots := al.slots.take idx }
      else some { al with slots := al.slots.set idx (slotmap.erase slot) }
  | _ => none

def deleteAddress : AccessList := al.setAddress addr none

/-- Every index points to a slot map, and no slot map is empty. -/
structure WellFormed : Prop where
  inRange : ∀ addr idx, al.addresses addr = some (some idx) → idx < al.slots.length
  nonempty : ∀ slotmap ∈ al.slots, slotmap.Nonempty

variable {al}

theorem wellFormed_new : newAccessList.WellFormed where
  inRange := by simp [newAccessList]
  nonempty := by simp [newAccessList]

theorem WellFormed.setAddress_none (h : al.WellFormed) (addr : Address) :
    (al.setAddress addr (some none)).WellFormed where
  inRange := by
    intro b idx hb
    by_cases hab : b = addr
    · simp [setAddress, hab] at hb
    · exact h.inRange b idx (by simpa [setAddress, hab] using hb)
  nonempty := h.nonempty

theorem WellFormed.openSlots (h : al.WellFormed) (addr : Address) (slot : Hash) :
    (al.openSlots addr slot).WellFormed where
  inRange := by
    intro b idx hb
    have hlen : (al.openSlots addr slot).slots.length = al.slots.length + 1 := by
      simp [AccessList.openSlots]
    by_cases hab : b = addr
    · have : al.slots.length = idx := by simpa [AccessList.openSlots, hab] using hb
      omega
    · have := h.inRange b idx (by simpa [AccessList.openSlots, hab] using hb)
      omega
  nonempty := by
    intro slotmap hmem
    rcases List.mem_append.mp hmem with hmem | hmem
    · exact h.nonempty slotmap hmem
    · rw [List.mem_singleton] at hmem
      exact hmem ▸ Finset.singleton_nonempty slot

/-- What `addSlot` can do to a well-formed list. -/
theorem addSlot_cases (h : al.WellFormed) (addr : Address) (slot : Hash) :
    al.addSlot addr slot = some (al, false, false) ∨
    (al.addresses addr = none ∧ al.addSlot addr slot = some (al.openSlots addr slot, true, true)) ∨
    (al.addresses addr = some none ∧
      al.addSlot addr slot = some (al.openSlots addr slot, false, true)) ∨
    ∃ idx slotmap, al.addresses addr = some (some idx) ∧ al.slots[idx]? = some slotmap ∧
      slot ∉ slotmap ∧ al.addSlot addr slot =
        some ({ al with slots := al.slots.set idx (insert slot slotmap) }, false, true) := by
  unfold addSlot
  cases haddr : al.addresses addr with
  | none => exact .inr (.inl ⟨rfl, rfl⟩)
  | some o =>
    cases o with
    | none => exact .inr (.inr (.inl ⟨rfl, rfl⟩))
    | some idx =>
      have hidx := h.inRange addr idx haddr
      have hget : al.slots[idx]? = some al.slots[idx] := List.getElem?_eq_getElem hidx
      by_cases hmem : slot ∈ al.slots[idx]
      · left
        simp [hget, hmem]
      · exact .inr (.inr (.inr ⟨idx, _, rfl, hget, hmem, by simp [hget, hmem]⟩))

theorem WellFormed.addSlot {al' : AccessList} {addrMod slotMod : Bool} (h : al.WellFormed)
    {addr : Address} {slot : Hash}
    (hadd : al.addSlot addr slot = some (al', addrMod, slotMod)) : al'.WellFormed := by
  obtain heq | ⟨-, heq⟩ | ⟨-, heq⟩ | ⟨idx, slotmap, haddr, hget, -, heq⟩ :=
    addSlot_cases h addr slot
  all_goals
    rw [heq] at hadd
    cases hadd
  · exact h
  · exact h.openSlots addr slot
  · exact h.openSlots addr slot
  · refine ⟨fun b i hb => ?_, fun m hm => ?_⟩
    · simpa using h.inRange b i hb
    · rcases List.mem_or_eq_of_mem_set hm with hm | rfl
      · exact h.nonempty m hm
      · exact Finset.insert_nonempty slot slotmap

theorem deleteSlot_openSlots (al : AccessList) (addr : Address) (slot : Hash) :
    (al.openSlots addr slot).deleteSlot addr slot = some (al.setAddress addr (some none)) := by
  simp [deleteSlot, openSlots, setAddress]

theorem deleteSlot_insert (h : al.WellFormed) {addr : Address} {slot : Hash} {idx : ℕ}
    {slotmap : Finset Hash} (haddr : al.addresses addr = some (some idx))
    (hget : al.slots[idx]? = some slotmap) (hmem : slot ∉ slotmap) :
    ({ al with slots := al.slots.set idx (insert slot slotmap) } : AccessList).deleteSlot
      addr slot = some al := by
  obtain ⟨hidx, hslot⟩ := List.getElem?_eq_some_iff.mp hget
  have hne : slotmap.Nonempty := h.nonempty slotmap (List.mem_of_getElem? hget)
  have herase : (insert slot slotmap).erase slot = slotmap := Finset.erase_insert hmem
  have hset : (al.slots.set idx (insert slot slotmap))[idx]? = some (insert slot slotmap) := by
    simp [hidx]
  have hback : (al.slots.set idx (insert slot slotmap)).set idx slotmap = al.slots := by
    rw [List.set_set, ← hslot, List.set_getElem_self]
  simp only [deleteSlot, haddr, hset, herase, hne.ne_empty, if_false, hback]

theorem deleteAddress_setAddress {addr : Address} (haddr : al.addresses addr = none)
    (idx : Option (Option ℕ)) : (al.setAddress addr idx).deleteAddress addr = al := by
  simp [deleteAddress, setAddress, ← haddr]

theorem setAddress_self {addr : Address} {idx : Option (Option ℕ)}
    (haddr : al.addresses addr = idx) : al.setAddress addr idx = al := by
  simp [setAddress, ← haddr]

end AccessList

end TacEvm
