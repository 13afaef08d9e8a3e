import TacEvm.Model.Devnet
import TacEvm.Model.VmParams

/-!
# Access control and the spelling of addresses

The policy looks for the text of an address, in the spelling of `Address.String`, while the
validation accepts every spelling. It decides by address exactly if every address of the list is
also there with its checksum (`decidesByAddress_iff`).
-/

namespace TacEvm.Vm

open FallibleState

variable {env : Env} {act act' : AccessControlType} {ac ac' : AccessControl}

namespace AccessControlType

/-- The addresses the list denotes. -/
def addresses (act : AccessControlType) : List Address := act.accessControlList.map hexToAddress

/-- The decision by address. -/
def decision (act : AccessControlType) (signer caller : Address) : Bool :=
  match accessTypeOf act.accessType with
  | some .permissionless => decide (signer ∉ act.addresses ∧ caller ∉ act.addresses)
  | some .permissioned => decide (signer ∈ act.addresses ∨ caller ∈ act.addresses)
  | some .restricted => false
  | none => false

variable (env) in
/-- A list that is looked at has its addresses with their checksums. -/
def Checksummed (act : AccessControlType) : Prop :=
  accessTypeOf act.accessType = some .restricted ∨
    ∀ a ∈ act.addresses, addressHex env a ∈ act.accessControlList

/-- The same type, and the same addresses in whatever spelling. -/
structure SameMeaning (act act' : AccessControlType) : Prop where
  accessType : act'.accessType = act.accessType
  addresses : ∀ a, a ∈ act'.addresses ↔ a ∈ act.addresses

theorem accessTypeOf_ne_none (h : act.validate = .ok ()) :
    accessTypeOf act.accessType ≠ none := by
  obtain ⟨_, htype, -⟩ := except_bind_ok.mp h
  intro hnone
  simp only [validateAccessType, hnone] at htype
  cases htype

theorem mem_addresses_of_text {a : Address} (h : addressHex env a ∈ act.accessControlList) :
    a ∈ act.addresses :=
  List.mem_map.mpr ⟨_, h, hexToAddress_addressHex env a⟩

/-- The meanings of a list need only agree where they are asked for. -/
theorem checkFn_eq_decision_iff (hvalid : act.validate = .ok ()) :
    (∀ signer caller, checkFn env act signer caller = act.decision signer caller) ↔
      act.Checksummed env := by
  cases htype : accessTypeOf act.accessType with
  | none => exact absurd htype (accessTypeOf_ne_none hvalid)
  | some accessType =>
    cases accessType with
    | restricted => simp [checkFn, decision, Checksummed, htype]
    | permissionless =>
      simp only [checkFn, decision, Checksummed, htype, permissionlessCheckFn, reduceCtorEq,
        Option.some.injEq, false_or, ← Bool.decide_and, decide_eq_decide]
      constructor
      · intro h a ha
        have hself := h a a
        by_contra hnot
        exact (hself.mp ⟨hnot, hnot⟩).1 ha
      · intro h signer caller
        have hiff : ∀ a, addressHex env a ∉ act.accessControlList ↔ a ∉ act.addresses :=
          fun a => not_congr ⟨mem_addresses_of_text, h a⟩
        rw [hiff, hiff]
    | permissioned =>
      simp only [checkFn, decision, Checksummed, htype, permissionedCheckFn, reduceCtorEq,
        Option.some.injEq, false_or, ← Bool.decide_or, decide_eq_decide]
      constructor
      · intro h a ha
        have hself := (h a a).mpr (.inl ha)
        exact hself.elim id id
      · intro h signer caller
        have hiff : ∀ a, addressHex env a ∈ act.accessControlList ↔ a ∈ act.addresses :=
          fun a => ⟨mem_addresses_of_text, h a⟩
        rw [hiff, hiff]

theorem SameMeaning.decision_eq (h : SameMeaning act act') (signer caller : Address) :
    act'.decision signer caller = act.decision signer caller := by
  unfold decision
  rw [h.accessType]
  split
  · simp only [h.addresses]
  · simp only [h.addresses]
  · rfl
  · rfl

end AccessControlType

namespace AccessControl

variable (env) in
/-- The policy decides by address. -/
def DecidesByAddress (ac : AccessControl) : Prop :=
  ∀ signer caller recipient,
    canCreate env ac signer caller = ac.create.decision signer caller ∧
      canCall env ac signer caller recipient = ac.call.decision signer caller

variable (env) in
def Checksummed (ac : AccessControl) : Prop :=
  ac.create.Checksummed env ∧ ac.call.Checksummed env

/-- Two access controls that mean the same. -/
def SameMeaning (ac ac' : AccessControl) : Prop :=
  ac.create.SameMeaning ac'.create ∧ ac.call.SameMeaning ac'.call

variable (env) in
/-- Two access controls give the same decisions. -/
def SameDecisions (ac ac' : AccessControl) : Prop :=
  ∀ signer caller recipient,
    canCreate env ac' signer caller = canCreate env ac signer caller ∧
      canCall env ac' signer caller recipient = canCall env ac signer caller recipient

theorem validate_ok (h : ac.validate = .ok ()) :
    ac.create.validate = .ok () ∧ ac.call.validate = .ok () := by
  obtain ⟨_, hcreate, hcall⟩ := except_bind_ok.mp h
  exact ⟨hcreate, hcall⟩

theorem decidesByAddress_iff_checksummed (hvalid : ac.validate = .ok ()) :
    ac.DecidesByAddress env ↔ ac.Checksummed env := by
  obtain ⟨hcreate, hcall⟩ := validate_ok hvalid
  unfold Checksummed DecidesByAddress
  rw [← AccessControlType.checkFn_eq_decision_iff hcreate,
    ← AccessControlType.checkFn_eq_decision_iff hcall]
  constructor
  · intro h
    exact ⟨fun signer caller => (h signer caller 0).1, fun signer caller => (h signer caller 0).2⟩
  · rintro ⟨hcreates, hcalls⟩ signer caller recipient
    exact ⟨hcreates signer caller, hcalls signer caller⟩

theorem DecidesByAddress.sameDecisions (h : ac.DecidesByAddress env)
    (h' : ac'.DecidesByAddress env) (hsame : ac.SameMeaning ac') :
    ac.SameDecisions env ac' := by
  intro signer caller recipient
  obtain ⟨hcreate, hcall⟩ := h signer caller recipient
  obtain ⟨hcreate', hcall'⟩ := h' signer caller recipient
  rw [hcreate, hcall, hcreate', hcall']
  exact ⟨hsame.1.decision_eq signer caller, hsame.2.decision_eq signer caller⟩

end AccessControl

/-- **When access control decides by address**: exactly if the lists that are looked at have
checksums. -/
theorem decidesByAddress_iff {cfg : Config} {params : Params}
    (hvalid : params.validate cfg = .ok ()) :
    (params.accessControl.DecidesByAddress env ↔ params.accessControl.Checksummed env) ∧
      ∀ params' : Params, params'.validate cfg = .ok () →
        params.accessControl.SameMeaning params'.accessControl →
        params.accessControl.Checksummed env → params'.accessControl.Checksummed env →
        params.accessControl.SameDecisions env params'.accessControl := by
  have hcontrol : ∀ p : Params, p.validate cfg = .ok () → p.accessControl.validate = .ok () := by
    intro p h
    obtain ⟨_, -, h₁⟩ := except_bind_ok.mp h
    obtain ⟨_, -, h₂⟩ := except_bind_ok.mp h₁
    obtain ⟨_, hac, -⟩ := except_bind_ok.mp h₂
    exact hac
  have hiff := @AccessControl.decidesByAddress_iff_checksummed env _ (hcontrol params hvalid)
  refine ⟨hiff, fun params' hvalid' hsame hchecksummed hchecksummed' => ?_⟩
  have hiff' := @AccessControl.decidesByAddress_iff_checksummed env _ (hcontrol params' hvalid')
  exact (hiff.mpr hchecksummed).sameDecisions (hiff'.mpr hchecksummed') hsame

/-! ## Two spellings of one address -/

namespace Devnet

def config : Config where
  validEip := fun _ => true
  activateableEips := []
  channelIdentifierValidator := fun _ => .ok ()

/-- Creating and calling are for the accounts of a list. -/
def permissioned (list : List Bytes) : Params where
  extraEIPs := [3855]
  allowUnprotectedTxs := false
  activeStaticPrecompiles := []
  evmChannels := []
  accessControl :=
    { create := { accessType := 2, accessControlList := list }
      call := { accessType := 2, accessControlList := list } }

def chainEnv : Env := Devnet.env18

/-- `0xA1` as it is written. -/
def written : Bytes := addressHex chainEnv 0xA1

/-- `0xA1` without the leading `0x`. -/
def bare : Bytes := (addressHex chainEnv 0xA1).drop 2

end Devnet

open Vm.Devnet

/-- A list with one address, as it is written. -/
theorem decidesByAddress_devnet :
    (permissioned [written]).accessControl.DecidesByAddress chainEnv := by
  have hvalid : (permissioned [written]).validate config = .ok () := by
    decide +kernel
  have hwritten : ∀ a ∈ [written].map hexToAddress, addressHex chainEnv a ∈ [written] := by
    intro a ha
    obtain ⟨text, htext, rfl⟩ := List.mem_map.mp ha
    cases List.mem_singleton.mp htext
    rw [written, hexToAddress_addressHex]
    exact List.mem_singleton_self _
  exact (decidesByAddress_iff hvalid).1.mpr ⟨.inr hwritten, .inr hwritten⟩

/-- **An address that is not found**: the second list denotes it, and refuses it. -/
theorem bare_address_refused :
    (permissioned [written]).validate config = .ok () ∧
      (permissioned [bare]).validate config = .ok () ∧
      (permissioned [bare]).accessControl.call.addresses = [0xA1] ∧
      canCall chainEnv (permissioned [written]).accessControl 0xA1 0xA1 0 = true ∧
      canCall chainEnv (permissioned [bare]).accessControl 0xA1 0xA1 0 = false ∧
      (permissioned [bare]).accessControl.call.decision 0xA1 0xA1 = true := by
  decide +kernel

end TacEvm.Vm
