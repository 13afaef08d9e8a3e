import TacEvm.Model.AnteHandler

/-!
# The limiter of `x/authz`

The level is raised for the messages of a `MsgExec` and not lowered again for what stands after it,
so it is at least the depth (`checkMsgs_occurs`). What is accepted depends on `load`, which counts
both (`checkMsgs_ok_iff`).
-/

namespace TacEvm

open FallibleState

/-! ## Where a message occurs -/

/-- The message occurs in the list, inside so many `MsgExec`s. -/
inductive SdkMsg.OccursAt (m : SdkMsg) : ℕ → List SdkMsg → Prop
  | here {msgs : List SdkMsg} (h : m ∈ msgs) : OccursAt m 0 msgs
  | inside {notUnpacked : Option Err} {innerMsgs msgs : List SdkMsg} {depth : ℕ}
      (hexec : SdkMsg.exec notUnpacked innerMsgs ∈ msgs) (h : OccursAt m depth innerMsgs) :
      OccursAt m (depth + 1) msgs

namespace AuthzLimiter

variable {disabled : List String} {isAuthzInnerMsg : Bool} {nestedLvl next : ℕ}
  {m : SdkMsg} {msgs : List SdkMsg}

theorem checkNestedLvl_ok (h : checkNestedLvl nestedLvl = .ok ()) : nestedLvl < maxNestedMsgs := by
  unfold checkNestedLvl at h
  split at h
  · cases h
  · omega

theorem refuseDisabled_ok {url : String} (h : refuseDisabled disabled url = .ok ()) :
    url ∉ disabled := by
  unfold refuseDisabled at h
  split at h
  · cases h
  · assumption

theorem checkMsg_exec_ok {notUnpacked : Option Err} {innerMsgs : List SdkMsg}
    (h : checkMsg disabled isAuthzInnerMsg nestedLvl (.exec notUnpacked innerMsgs) = .ok next) :
    nestedLvl + 1 < maxNestedMsgs ∧ checkMsgs disabled true (nestedLvl + 1) innerMsgs = .ok () ∧
      next = nestedLvl + 1 := by
  unfold checkMsg at h
  split at h
  · cases h
  · obtain ⟨_, hlvl, h₁⟩ := except_bind_ok.mp h
    obtain ⟨_, hinner, h₂⟩ := except_bind_ok.mp h₁
    cases h₂
    exact ⟨checkNestedLvl_ok hlvl, hinner, rfl⟩

theorem checkMsg_grant_ok {authorization : Except Err String}
    (h : checkMsg disabled isAuthzInnerMsg nestedLvl (.grant authorization) = .ok next) :
    (∃ url, authorization = .ok url ∧ url ∉ disabled) ∧ next = nestedLvl := by
  obtain ⟨url, hurl, h₁⟩ := except_bind_ok.mp h
  obtain ⟨_, hrefuse, h₂⟩ := except_bind_ok.mp h₁
  cases h₂
  exact ⟨⟨url, hurl, refuseDisabled_ok hrefuse⟩, rfl⟩

theorem refuseInner_ok {url : String}
    (h : (do
      (if isAuthzInnerMsg then refuseDisabled disabled url else .ok ())
      return nestedLvl : Except Err ℕ) = .ok next) :
    (isAuthzInnerMsg = true → url ∉ disabled) ∧ next = nestedLvl := by
  obtain ⟨_, hrefuse, hnext⟩ := except_bind_ok.mp h
  cases hnext
  refine ⟨fun hinner => ?_, rfl⟩
  rw [if_pos hinner] at hrefuse
  exact refuseDisabled_ok hrefuse

theorem checkMsg_mono (h : checkMsg disabled isAuthzInnerMsg nestedLvl m = .ok next) :
    nestedLvl ≤ next := by
  cases m with
  | ethereumTx msg => exact (refuseInner_ok h).2.ge
  | exec notUnpacked innerMsgs =>
    obtain ⟨-, -, rfl⟩ := checkMsg_exec_ok h
    exact Nat.le_succ nestedLvl
  | grant authorization => exact (checkMsg_grant_ok h).2.ge
  | other typeURL typeName => exact (refuseInner_ok h).2.ge

theorem checkMsg_inner_ok (hexec : "/cosmos.authz.v1beta1.MsgExec" ∉ disabled)
    (hgrant : "/cosmos.authz.v1beta1.MsgGrant" ∉ disabled)
    (h : checkMsg disabled true nestedLvl m = .ok next) : m.typeURL ∉ disabled := by
  cases m with
  | ethereumTx msg => exact (refuseInner_ok h).1 rfl
  | exec notUnpacked innerMsgs => exact hexec
  | grant authorization => exact hgrant
  | other typeURL typeName => exact (refuseInner_ok h).1 rfl

theorem checkMsgs_mem (h : checkMsgs disabled isAuthzInnerMsg nestedLvl msgs = .ok ())
    (hm : m ∈ msgs) : ∃ lvl next, nestedLvl ≤ lvl ∧
      checkMsg disabled isAuthzInnerMsg lvl m = .ok next := by
  induction msgs generalizing nestedLvl with
  | nil => cases hm
  | cons msg msgs ih =>
    obtain ⟨next, hmsg, hrest⟩ := except_bind_ok.mp h
    rcases List.mem_cons.mp hm with rfl | hm
    · exact ⟨nestedLvl, next, le_refl _, hmsg⟩
    · obtain ⟨lvl, next', hle, hok⟩ := ih hrest hm
      exact ⟨lvl, next', (checkMsg_mono hmsg).trans hle, hok⟩

/-- **What occurs has been checked**, at a level of at least its depth. -/
theorem checkMsgs_occurs {depth : ℕ} (hm : m.OccursAt depth msgs)
    (h : checkMsgs disabled isAuthzInnerMsg nestedLvl msgs = .ok ()) :
    ∃ lvl next, nestedLvl + depth ≤ lvl ∧
      checkMsg disabled (isAuthzInnerMsg || decide (0 < depth)) lvl m = .ok next := by
  induction hm generalizing isAuthzInnerMsg nestedLvl with
  | here hmem =>
    obtain ⟨lvl, next, hle, hok⟩ := checkMsgs_mem h hmem
    exact ⟨lvl, next, hle, by simpa using hok⟩
  | @inside notUnpacked innerMsgs msgs depth hexec hm ih =>
    obtain ⟨lvl, next, hle, hok⟩ := checkMsgs_mem h hexec
    obtain ⟨-, hinner, -⟩ := checkMsg_exec_ok hok
    obtain ⟨lvl', next', hle', hok'⟩ := ih hinner
    exact ⟨lvl', next', by omega, by simpa using hok'⟩

theorem checkDisabledMsgs_inner (hexec : "/cosmos.authz.v1beta1.MsgExec" ∉ disabled)
    (hgrant : "/cosmos.authz.v1beta1.MsgGrant" ∉ disabled)
    (h : checkDisabledMsgs disabled msgs false 1 = .ok ()) {depth : ℕ}
    (hm : m.OccursAt (depth + 1) msgs) : m.typeURL ∉ disabled := by
  obtain ⟨_, -, hmsgs⟩ := except_bind_ok.mp h
  obtain ⟨lvl, next, -, hok⟩ := checkMsgs_occurs hm hmsgs
  have hinner : (false || decide (0 < depth + 1)) = true := by simp
  rw [hinner] at hok
  exact checkMsg_inner_ok hexec hgrant hok

/-- Messages at a depth are looked at inside `depth + 1` calls. -/
structure Limited (disabled : List String) (msgs : List SdkMsg) : Prop where
  exec : ∀ m depth, SdkMsg.OccursAt m (depth + 1) msgs → m.typeURL ∉ disabled
  grant : ∀ authorization depth, SdkMsg.OccursAt (.grant authorization) depth msgs →
    ∃ url, authorization = .ok url ∧ url ∉ disabled
  nesting : ∀ notUnpacked innerMsgs depth,
    SdkMsg.OccursAt (.exec notUnpacked innerMsgs) depth msgs → depth + 2 < maxNestedMsgs

/-- **The limiter is sound**, for every tree of messages. -/
theorem checkDisabledMsgs_limited (hexec : "/cosmos.authz.v1beta1.MsgExec" ∉ disabled)
    (hgrant : "/cosmos.authz.v1beta1.MsgGrant" ∉ disabled)
    (h : checkDisabledMsgs disabled msgs false 1 = .ok ()) : Limited disabled msgs := by
  refine ⟨fun m depth => checkDisabledMsgs_inner hexec hgrant h, ?_, ?_⟩
  · intro authorization depth hm
    obtain ⟨_, -, hmsgs⟩ := except_bind_ok.mp h
    obtain ⟨lvl, next, -, hok⟩ := checkMsgs_occurs hm hmsgs
    exact (checkMsg_grant_ok hok).1
  · intro notUnpacked innerMsgs depth hm
    obtain ⟨_, -, hmsgs⟩ := except_bind_ok.mp h
    obtain ⟨lvl, next, hle, hok⟩ := checkMsgs_occurs hm hmsgs
    have hlt := (checkMsg_exec_ok hok).1
    omega

/-- Five nested `MsgExec`s, beside a grant. -/
theorem checkDisabledMsgs_limited_nested :
    Limited disabledAuthzMsgs
      [.grant (.ok "/cosmos.bank.v1beta1.MsgSend"),
        .exec none [.exec none [.exec none [.exec none [.exec none
          [.other "/cosmos.bank.v1beta1.MsgSend" "*types.MsgSend"]]]]]] :=
  checkDisabledMsgs_limited (by decide) (by decide) (by rfl)

theorem occursAt_cons {depth : ℕ} {m' : SdkMsg} (h : m.OccursAt depth msgs) :
    m.OccursAt depth (m' :: msgs) := by
  cases h with
  | here h => exact .here (List.mem_cons_of_mem m' h)
  | inside hexec h => exact .inside (List.mem_cons_of_mem m' hexec) h

/-- Nothing in a list is disabled or cannot be decoded. -/
structure Permitted (disabled : List String) (isAuthzInnerMsg : Bool) (msgs : List SdkMsg) :
    Prop where
  decodes : ∀ notUnpacked innerMsgs depth,
    SdkMsg.OccursAt (.exec notUnpacked innerMsgs) depth msgs → notUnpacked = none
  grant : ∀ authorization depth, SdkMsg.OccursAt (.grant authorization) depth msgs →
    ∃ url, authorization = .ok url ∧ url ∉ disabled
  exec : ∀ m depth, SdkMsg.OccursAt m depth msgs → isAuthzInnerMsg = true ∨ 0 < depth →
    m.typeURL ∉ disabled

namespace Permitted

theorem tail (h : Permitted disabled isAuthzInnerMsg (m :: msgs)) :
    Permitted disabled isAuthzInnerMsg msgs where
  decodes := fun notUnpacked innerMsgs depth hm =>
    h.decodes notUnpacked innerMsgs depth (occursAt_cons hm)
  grant := fun authorization depth hm => h.grant authorization depth (occursAt_cons hm)
  exec := fun m depth hm => h.exec m depth (occursAt_cons hm)

theorem inner {notUnpacked : Option Err} {innerMsgs : List SdkMsg}
    (h : Permitted disabled isAuthzInnerMsg (.exec notUnpacked innerMsgs :: msgs)) :
    Permitted disabled true innerMsgs where
  decodes := fun notUnpacked' innerMsgs' depth hm =>
    h.decodes notUnpacked' innerMsgs' (depth + 1) (.inside List.mem_cons_self hm)
  grant := fun authorization depth hm =>
    h.grant authorization (depth + 1) (.inside List.mem_cons_self hm)
  exec := fun m depth hm _ =>
    h.exec m (depth + 1) (.inside List.mem_cons_self hm) (.inr (Nat.succ_pos depth))

theorem refuseDisabled (h : Permitted disabled isAuthzInnerMsg (m :: msgs)) :
    (if isAuthzInnerMsg then refuseDisabled disabled m.typeURL else .ok ()) = .ok () := by
  split
  · rename_i hinner
    unfold AuthzLimiter.refuseDisabled
    rw [if_neg (h.exec m 0 (.here List.mem_cons_self) (.inl hinner))]
  · rfl

end Permitted

/-- How much a message raises the level for those after it. -/
def raise : SdkMsg → ℕ
  | .exec _ _ => 1
  | _ => 0

mutual

/-- By how much the level is raised at most inside a message. -/
def msgLoad : SdkMsg → ℕ
  | .exec _ innerMsgs => 1 + load innerMsgs
  | _ => 0

/-- How often the level is raised: by each `MsgExec` around or before a message. -/
def load : List SdkMsg → ℕ
  | [] => 0
  | m :: msgs => max (msgLoad m) (raise m + load msgs)

end

theorem msgs_induction {P : List SdkMsg → Prop} (nil : P [])
    (cons : ∀ m msgs, (∀ notUnpacked innerMsgs, m = .exec notUnpacked innerMsgs → P innerMsgs) →
      P msgs → P (m :: msgs)) (msgs : List SdkMsg) : P msgs := by
  refine @SdkMsg.rec_1 (fun m => ∀ notUnpacked innerMsgs, m = .exec notUnpacked innerMsgs →
    P innerMsgs) P ?_ ?_ ?_ ?_ nil cons msgs
  · intro msg notUnpacked innerMsgs h
    cases h
  · intro notUnpacked innerMsgs ih notUnpacked' innerMsgs' h
    cases h
    exact ih
  · intro authorization notUnpacked innerMsgs h
    cases h
  · intro typeURL typeName notUnpacked innerMsgs h
    cases h

/-- One message, given the equivalence for what it wraps. -/
theorem checkMsg_ok_iff (h : Permitted disabled isAuthzInnerMsg (m :: msgs))
    (ih : ∀ notUnpacked innerMsgs, m = .exec notUnpacked innerMsgs →
      nestedLvl + 1 < maxNestedMsgs →
      (checkMsgs disabled true (nestedLvl + 1) innerMsgs = .ok () ↔
        nestedLvl + 1 + load innerMsgs < maxNestedMsgs))
    (hlvl : nestedLvl < maxNestedMsgs) :
    checkMsg disabled isAuthzInnerMsg nestedLvl m = .ok next ↔
      next = nestedLvl + raise m ∧ nestedLvl + msgLoad m < maxNestedMsgs := by
  cases m with
  | ethereumTx msg =>
    rw [checkMsg, h.refuseDisabled]
    exact ⟨fun hok => ⟨(Except.ok.inj hok).symm, hlvl⟩, fun hok => congrArg Except.ok hok.1.symm⟩
  | other typeURL typeName =>
    rw [checkMsg]
    have hpass := h.refuseDisabled
    dsimp only [SdkMsg.typeURL] at hpass
    rw [hpass]
    exact ⟨fun hok => ⟨(Except.ok.inj hok).symm, hlvl⟩, fun hok => congrArg Except.ok hok.1.symm⟩
  | grant authorization =>
    obtain ⟨url, rfl, hurl⟩ := h.grant authorization 0 (.here List.mem_cons_self)
    have hpass : refuseDisabled disabled url = .ok () := by
      unfold refuseDisabled
      rw [if_neg hurl]
    rw [checkMsg]
    show ((refuseDisabled disabled url >>= fun _ => pure nestedLvl : Except Err ℕ) = _) ↔ _
    rw [hpass]
    exact ⟨fun hok => ⟨(Except.ok.inj hok).symm, hlvl⟩, fun hok => congrArg Except.ok hok.1.symm⟩
  | exec notUnpacked innerMsgs =>
    have hnone := h.decodes notUnpacked innerMsgs 0 (.here List.mem_cons_self)
    subst hnone
    constructor
    · intro hok
      obtain ⟨hlt, hinner, rfl⟩ := checkMsg_exec_ok hok
      have hload := (ih none innerMsgs rfl hlt).mp hinner
      refine ⟨rfl, ?_⟩
      rw [msgLoad]
      omega
    · rintro ⟨rfl, hload⟩
      rw [msgLoad] at hload
      have hlt : nestedLvl + 1 < maxNestedMsgs := by omega
      have hinner := (ih none innerMsgs rfl hlt).mpr (by omega)
      have hnested : checkNestedLvl (nestedLvl + 1) = .ok () := by
        unfold checkNestedLvl
        rw [if_neg (by omega)]
      rw [checkMsg]
      exact except_bind_ok.mpr ⟨(), hnested, except_bind_ok.mpr ⟨(), hinner, rfl⟩⟩

/-- **What is accepted**: lists that do not raise the level too often. -/
theorem checkMsgs_ok_iff (h : Permitted disabled isAuthzInnerMsg msgs)
    (hlvl : nestedLvl < maxNestedMsgs) :
    checkMsgs disabled isAuthzInnerMsg nestedLvl msgs = .ok () ↔
      nestedLvl + load msgs < maxNestedMsgs := by
  induction msgs using msgs_induction generalizing isAuthzInnerMsg nestedLvl with
  | nil =>
    rw [checkMsgs, load]
    exact ⟨fun _ => hlvl, fun _ => rfl⟩
  | cons m msgs ihInner ih =>
    have hmsg : ∀ next, checkMsg disabled isAuthzInnerMsg nestedLvl m = .ok next ↔
        next = nestedLvl + raise m ∧ nestedLvl + msgLoad m < maxNestedMsgs := by
      intro next
      refine checkMsg_ok_iff h (fun notUnpacked innerMsgs hexec hlt => ?_) hlvl
      subst hexec
      exact ihInner notUnpacked innerMsgs rfl h.inner hlt
    have hraise : raise m ≤ msgLoad m := by
      cases m with
      | exec notUnpacked innerMsgs =>
        rw [msgLoad]
        exact Nat.le_add_right 1 _
      | _ => exact Nat.zero_le _
    rw [checkMsgs, load]
    constructor
    · intro hok
      obtain ⟨next, hhead, hrest⟩ := except_bind_ok.mp hok
      obtain ⟨rfl, hload⟩ := (hmsg next).mp hhead
      have htail := (ih h.tail (by omega)).mp hrest
      omega
    · intro hload
      have hhead := (hmsg (nestedLvl + raise m)).mpr ⟨rfl, by omega⟩
      have hrest : checkMsgs disabled isAuthzInnerMsg (nestedLvl + raise m) msgs = .ok () :=
        (ih h.tail (by omega)).mpr (by omega)
      exact except_bind_ok.mpr ⟨_, hhead, hrest⟩

/-- **Which of the permitted lists the limiter accepts.** -/
theorem checkDisabledMsgs_ok_iff (h : Permitted disabled false msgs) :
    checkDisabledMsgs disabled msgs false 1 = .ok () ↔ 1 + load msgs < maxNestedMsgs :=
  checkMsgs_ok_iff h (by decide)

/-- So many `MsgExec`s side by side, each of one transfer. -/
def siblings (count : ℕ) : List SdkMsg :=
  List.replicate count (.exec none [.other "/cosmos.bank.v1beta1.MsgSend" "*types.MsgSend"])

theorem occursAt_siblings {count depth : ℕ} (h : m.OccursAt depth (siblings count)) :
    depth = 0 ∧ m = .exec none [.other "/cosmos.bank.v1beta1.MsgSend" "*types.MsgSend"] ∨
      depth = 1 ∧ m = .other "/cosmos.bank.v1beta1.MsgSend" "*types.MsgSend" := by
  cases h with
  | here h => exact .inl ⟨rfl, (List.mem_replicate.mp h).2⟩
  | inside hexec h =>
    cases (List.mem_replicate.mp hexec).2
    cases h with
    | here h => exact .inr ⟨rfl, List.mem_singleton.mp h⟩
    | inside hexec h => cases List.mem_singleton.mp hexec

theorem permitted_siblings (count : ℕ) : Permitted disabledAuthzMsgs false (siblings count) where
  decodes := by
    intro notUnpacked innerMsgs depth h
    rcases occursAt_siblings h with ⟨-, h⟩ | ⟨-, h⟩
    · cases h
      rfl
    · cases h
  grant := by
    intro authorization depth h
    rcases occursAt_siblings h with ⟨-, h⟩ | ⟨-, h⟩
    · cases h
    · cases h
  exec := by
    intro m depth h hdepth
    rcases occursAt_siblings h with ⟨rfl, -⟩ | ⟨-, rfl⟩
    · simp at hdepth
    · decide

theorem checkDisabledMsgs_five_siblings :
    checkDisabledMsgs disabledAuthzMsgs (siblings 5) false 1 = .ok () :=
  (checkDisabledMsgs_ok_iff (permitted_siblings 5)).mpr (by decide)

/-- **Six `MsgExec`s side by side** are refused. -/
theorem checkDisabledMsgs_six_siblings :
    Permitted disabledAuthzMsgs false (siblings 6) ∧
      (∀ notUnpacked innerMsgs depth, SdkMsg.OccursAt (.exec notUnpacked innerMsgs) depth
        (siblings 6) → depth + 2 = 2) ∧
      checkDisabledMsgs disabledAuthzMsgs (siblings 6) false 1 =
        .error (.errorf "found more nested msgs than permitted; got: %d, expected: <%d"
          [.num 7, .num 7]) := by
  refine ⟨permitted_siblings 6, ?_, rfl⟩
  intro notUnpacked innerMsgs depth h
  rcases occursAt_siblings h with ⟨rfl, -⟩ | ⟨-, h⟩
  · rfl
  · cases h

end AuthzLimiter

end TacEvm
