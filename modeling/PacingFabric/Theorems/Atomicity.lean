import PacingFabric.Theorems.Histories
import PacingFabric.Theorems.Mirror
import PacingFabric.Theorems.Pending

/-!
# What a refused operation leaves behind

An operation that changes a table journals the change after it has made it. When the record
cannot be encoded, or the durable store does not take it, the operation is refused and the
change stays.

## Main definitions

* `Registration`: the operations that change a registry and journal the change.
* `Registration.changed`: the change a registry admits, and the record of it.
* `Fabric.Takes`: the record is encoded and the durable store takes it.

## Main results

* `refused_keeps_registries_iff`: a refused operation leaves the registries alone exactly when
  the change was not admitted, or was recorded, or was none.
-/

namespace Pacing

open SlotTable Interleaving

/-! ### What a registry admits it makes -/

theorem BindingRegistry.bind_changes {limits : Limits} {registry : BindingRegistry}
    {binding : FlowBinding} (hok : (bind limits registry binding).1.isOk = true) :
    (bind limits registry binding).2 ≠ registry := by
  have hbinds := bind_binds limits registry binding
  generalize bind limits registry binding = result at hok hbinds ⊢
  cases hbinds with
  | invalid bad =>
    rw [bad] at hok
    cases hok
  | exhausted | full => cases hok
  | @rebound i entry generation found holds newer =>
    -- the slot would have kept its generation, and the new one is later
    intro hsame
    have hgeneration := congrArg (·.binding.generation) (eq_of_set_eq found hsame)
    dsimp only at hgeneration
    rw [← hgeneration] at newer
    exact UInt64.lt_irrefl _ newer
  | bound => exact fun hsame => List.cons_ne_nil _ _ (List.append_right_eq_self.1 hsame)

theorem BindingRegistry.get_refused {registry : BindingRegistry} {flow : FlowId} {status : Status}
    (hget : registry.get flow = .error status) : status.isOk = false := by
  unfold get at hget
  split at hget
  · cases hget
  · obtain rfl := Except.error.inj hget
    rfl

theorem BindingRegistry.unbind_changes {registry : BindingRegistry} {flow : FlowId}
    (hok : (unbind registry flow).1.isOk = true) : (unbind registry flow).2 ≠ registry := by
  unfold unbind at hok ⊢
  cases hfind : registry.findIdx? (holds flow) with
  | none =>
    rw [hfind] at hok
    cases hok
  | some i =>
    obtain ⟨entry, hentry, hholds⟩ := getElem?_of_findIdx? hfind
    intro hsame
    have hlive := congrArg (·.live) (eq_of_modify_eq hentry hsame)
    rw [(holds_iff.1 hholds).1] at hlive
    cases hlive

theorem PolicyStore.publish_refused {limits : Limits} {store : PolicyStore}
    {policy : PacingPolicy} {status : Status}
    (hrefused : (publish limits store policy).1 = .error status) :
    (publish limits store policy).2 = store ∧ status.isOk = false := by
  have hpublishes := publish_publishes limits store policy
  generalize publish limits store policy = result at hrefused hpublishes ⊢
  cases hpublishes with
  | invalid bad =>
    obtain rfl := Except.error.inj hrefused
    exact ⟨rfl, bad⟩
  | full | exhausted =>
    obtain rfl := Except.error.inj hrefused
    exact ⟨rfl, rfl⟩
  | filled | appended => cases hrefused

theorem PolicyStore.publish_changes {limits : Limits} {store : PolicyStore}
    {policy : PacingPolicy} {ref : PolicyRef} (hok : (publish limits store policy).1 = .ok ref) :
    (publish limits store policy).2 ≠ store := by
  have hpublishes := publish_publishes limits store policy
  generalize publish limits store policy = result at hok hpublishes ⊢
  cases hpublishes with
  | invalid | full | exhausted => cases hok
  | @filled i entry generation found named room newer =>
    -- the slot would have kept its generation, and the new one is later
    intro hsame
    have hgeneration := congrArg (·.policy.ref.generation) (eq_of_set_eq found hsame)
    dsimp only at hgeneration
    rw [← hgeneration] at newer
    exact UInt64.lt_irrefl _ newer
  | appended => exact fun hsame => List.cons_ne_nil _ _ (List.append_right_eq_self.1 hsame)

theorem PolicyStore.get_refused {store : PolicyStore} {id : PolicyId} {status : Status}
    (hget : store.get id = .error status) : status.isOk = false := by
  unfold get at hget
  split at hget
  · cases hget
  · obtain rfl := Except.error.inj hget
    rfl

theorem PolicyStore.remove_changes {store : PolicyStore} {id : PolicyId}
    (hok : (remove store id).1.isOk = true) : (remove store id).2 ≠ store := by
  unfold remove at hok ⊢
  cases hfind : store.findIdx? (holds id) with
  | none =>
    rw [hfind] at hok
    cases hok
  | some i =>
    obtain ⟨entry, hentry, hholds⟩ := getElem?_of_findIdx? hfind
    intro hsame
    have hlive := congrArg (·.live) (eq_of_modify_eq hentry hsame)
    rw [holds, Bool.and_eq_true] at hholds
    rw [hholds.1] at hlive
    cases hlive

/-! ### Registrations -/

/-- The operations that change a registry and journal the change. -/
inductive Registration
  | bindFlow (binding : FlowBinding)
  | unbindFlow (flow : FlowId)
  | publishPolicy (policy : PacingPolicy)
  | removePolicy (id : PolicyId)
  | registerBackend (backend : Option BackendPtr) (desc : BackendDescriptor)

/-- The registries of two fabrics are the same. -/
structure Fabric.SameRegistries (f f' : Fabric) : Prop where
  bindings : f'.bindings = f.bindings
  policies : f'.policies = f.policies
  backends : f'.backends = f.backends

/-- The record is encoded and the durable store, if there is one, takes it: the checkpoint that
is due and the append both succeed. -/
def Fabric.Takes (f : Fabric) (a : Answers) (now : Instant) (type : DurableRecordType)
    (payload : StatusOr Bytes) : Prop :=
  ∃ bytes, payload = .ok bytes ∧ (f.journal a type bytes now.ns).1.isOk = true

namespace Registration

variable {f f₁ : Fabric} {a : Answers} {now : Instant} {op : Registration}
  {type : DurableRecordType} {payload : StatusOr Bytes}

/-- The operation, and the status it answers with. -/
def run (f : Fabric) (a : Answers) (now : Instant) : Registration → Status × Fabric
  | .bindFlow binding => f.bindFlow a now binding
  | .unbindFlow flow => f.unbindFlow a now flow
  | .publishPolicy policy =>
    match f.publishPolicy a now policy with
    | (.ok _, f) => (.success, f)
    | (.error status, f) => (status, f)
  | .removePolicy id => f.removePolicy a now id
  | .registerBackend none _ => (.of .invalidArgument "backend handle is null", f)
  | .registerBackend (some backend) desc =>
    let valid := Fabric.checkDescriptor f.config.limits desc
    if valid.isOk then f.registerBackend a now backend desc else (valid, f)

/-- The fabric with the change that its registry admits, and the record of the change. -/
def changed (f : Fabric) (now : Instant) :
    Registration → Option (Fabric × DurableRecordType × StatusOr Bytes)
  | .bindFlow binding =>
    let (status, bindings) := BindingRegistry.bind f.config.limits f.bindings binding
    if f.running && status.isOk then
      some ({ f with bindings := bindings }, .flowBinding,
        (bindings.get binding.flow).bind fun stored =>
          (encodeBinding ⟨1024, [], none⟩ stored).finish)
    else none
  | .unbindFlow flow =>
    let (status, bindings) := BindingRegistry.unbind f.bindings flow
    if f.running && status.isOk then
      some ({ f with bindings := bindings }, .flowUnbound,
        (encodeIdentityU64 ⟨64, [], none⟩ flow.value).finish)
    else none
  | .publishPolicy policy =>
    let policy := if policy.publishedAt.ns == 0 then { policy with publishedAt := now } else policy
    match f.running, PolicyStore.publish f.config.limits f.policies policy with
    | true, (.ok ref, policies) =>
      some ({ f with policies := policies }, .policy,
        (policies.get ref.id).bind fun stored =>
          (encodePolicy ⟨encodeCapacityBytes, [], none⟩ stored).finish)
    | _, _ => none
  | .removePolicy id =>
    let (status, policies) := PolicyStore.remove f.policies id
    if f.running && status.isOk then
      some ({ f with policies := policies }, .policyRemoved,
        (encodeIdentityU64 ⟨64, [], none⟩ id.value).finish)
    else none
  | .registerBackend none _ => none
  | .registerBackend (some backend) desc =>
    let existing := f.backends.findIdx? (·.1 == desc.ref.id)
    if f.running && (Fabric.checkDescriptor f.config.limits desc).isOk &&
        !(existing.isNone && decide (f.backends.length ≥ f.config.limits.maxBackends.toNat)) then
      some ({ f with backends :=
          match existing with
          | some i => f.backends.set i (desc.ref.id, backend)
          | none => f.backends ++ [(desc.ref.id, backend)] }, .backendRegistration,
        (encodeBackendDescriptor ⟨1024, [], none⟩ desc).finish)
    else none

/-- The handle that is registered is the one its identity has. -/
def Repeats (f : Fabric) (op : Registration) : Prop :=
  ∃ backend desc, op = .registerBackend (some backend) desc ∧
    f.backendPtr desc.ref.id = some backend

/-- How a registration ends: its registry refuses the change, or makes it, and then the status
says whether the record was taken. -/
inductive Ends (f : Fabric) (a : Answers) (now : Instant) (op : Registration) : Prop
  | refused (none : op.changed f now = none) (kept : f.SameRegistries (op.run f a now).2)
  | made {f₁ : Fabric} {type : DurableRecordType} {payload : StatusOr Bytes}
      (some : op.changed f now = some (f₁, type, payload))
      (made : f₁.SameRegistries (op.run f a now).2)
      (ok : (op.run f a now).1.isOk = true ↔ f₁.Takes a now type payload)
      (same : f.SameRegistries f₁ ↔ op.Repeats f)

/-- What is left of an operation that has made its change: the record. -/
def record (f₁ : Fabric) (a : Answers) (now : Instant) (type : DurableRecordType) :
    StatusOr Bytes → Status × Fabric
  | .error status => (status, f₁)
  | .ok bytes => f₁.journalRecord a type bytes now.ns

theorem Ends.of_record (hchanged : op.changed f now = some (f₁, type, payload))
    (hok : (op.run f a now).1.isOk = (record f₁ a now type payload).1.isOk)
    (hmade : (op.run f a now).2 = (record f₁ a now type payload).2)
    (hrefuses : ∀ s, payload = .error s → s.isOk = false)
    (hsame : f.SameRegistries f₁ ↔ op.Repeats f) : Ends f a now op := by
  refine .made hchanged ?_ ?_ hsame
  · rw [hmade]
    cases payload <;> exact ⟨rfl, rfl, rfl⟩
  · rw [hok]
    cases payload with
    | error s =>
      refine iff_of_false ?_ fun ⟨_, heq, _⟩ => nomatch heq
      rw [record, hrefuses s rfl]
      exact Bool.false_ne_true
    | ok bytes =>
      constructor
      · intro h
        exact ⟨bytes, rfl, h⟩
      · rintro ⟨_, heq, h⟩
        obtain rfl := Except.ok.inj heq
        exact h

theorem ends_bindFlow (f : Fabric) (a : Answers) (now : Instant) (binding : FlowBinding) :
    Ends f a now (.bindFlow binding) := by
  have hrefuses := @BindingRegistry.bind_refused f.config.limits f.bindings binding
  have hchanges := @BindingRegistry.bind_changes f.config.limits f.bindings binding
  rcases hbind : BindingRegistry.bind f.config.limits f.bindings binding with ⟨status, bindings⟩
  rw [hbind] at hrefuses hchanges
  cases hrun : f.running with
  | false =>
    refine .refused (by simp [changed, hrun]) ?_
    simp only [run, Fabric.bindFlow, hrun]
    exact ⟨rfl, rfl, rfl⟩
  | true =>
    cases hok : status.isOk with
    | false =>
      refine .refused (by simp [changed, hbind, hok]) ?_
      simp only [run, Fabric.bindFlow, hrun, hbind, hok]
      exact ⟨hrefuses hok, rfl, rfl⟩
    | true =>
      -- the registry has changed: the rest is the writing of its record
      have hchanged : (Registration.bindFlow binding).changed f now =
          some ({ f with bindings := bindings }, .flowBinding,
            (bindings.get binding.flow).bind fun stored =>
              (encodeBinding ⟨1024, [], none⟩ stored).finish) := by
        simp only [changed, hbind, hrun, hok, Bool.and_self, if_true]
      have hrecord : (Registration.bindFlow binding).run f a now =
          record { f with bindings := bindings } a now .flowBinding
            ((bindings.get binding.flow).bind fun stored =>
              (encodeBinding ⟨1024, [], none⟩ stored).finish) := by
        simp only [run, Fabric.bindFlow, hrun, hbind, hok]
        cases bindings.get binding.flow with
        | error => rfl
        | ok stored =>
          simp only [Except.bind]
          generalize (encodeBinding ⟨1024, [], none⟩ stored).finish = payload
          cases payload <;> rfl
      refine .of_record hchanged (by rw [hrecord]) (by rw [hrecord]) ?_ ?_
      · intro s hs
        cases hget : bindings.get binding.flow with
        | error status =>
          rw [hget] at hs
          obtain rfl := Except.error.inj hs
          exact BindingRegistry.get_refused hget
        | ok stored =>
          rw [hget, Except.bind] at hs
          exact ((ByteWriter.Roomy.fresh 1024).binding stored).refused hs
      · refine iff_of_false (fun h => hchanges hok h.bindings) ?_
        rintro ⟨_, _, heq, _⟩
        cases heq

theorem ends_unbindFlow (f : Fabric) (a : Answers) (now : Instant) (flow : FlowId) :
    Ends f a now (.unbindFlow flow) := by
  have hrefuses := @BindingRegistry.unbind_refused f.bindings flow
  have hchanges := @BindingRegistry.unbind_changes f.bindings flow
  rcases hunbind : BindingRegistry.unbind f.bindings flow with ⟨status, bindings⟩
  rw [hunbind] at hrefuses hchanges
  cases hrun : f.running with
  | false =>
    refine .refused (by simp [changed, hrun]) ?_
    simp only [run, Fabric.unbindFlow, hrun]
    exact ⟨rfl, rfl, rfl⟩
  | true =>
    cases hok : status.isOk with
    | false =>
      refine .refused (by simp [changed, hunbind, hok]) ?_
      simp only [run, Fabric.unbindFlow, hrun, hunbind, hok]
      exact ⟨hrefuses hok, rfl, rfl⟩
    | true =>
      have hchanged : (Registration.unbindFlow flow).changed f now =
          some ({ f with bindings := bindings }, .flowUnbound,
            (encodeIdentityU64 ⟨64, [], none⟩ flow.value).finish) := by
        simp only [changed, hunbind, hrun, hok, Bool.and_self, if_true]
      have hrecord : (Registration.unbindFlow flow).run f a now =
          record { f with bindings := bindings } a now .flowUnbound
            (encodeIdentityU64 ⟨64, [], none⟩ flow.value).finish := by
        simp only [run, Fabric.unbindFlow, hrun, hunbind, hok]
        generalize (encodeIdentityU64 ⟨64, [], none⟩ flow.value).finish = payload
        cases payload <;> rfl
      refine .of_record hchanged (by rw [hrecord]) (by rw [hrecord])
        (fun s hs => ((ByteWriter.Roomy.fresh 64).u64v flow.value).refused hs) ?_
      · refine iff_of_false (fun h => hchanges hok h.bindings) ?_
        rintro ⟨_, _, heq, _⟩
        cases heq

theorem ends_publishPolicy (f : Fabric) (a : Answers) (now : Instant) (policy : PacingPolicy) :
    Ends f a now (.publishPolicy policy) := by
  cases hrun : f.running with
  | false =>
    refine .refused (by simp [changed, hrun]) ?_
    simp only [run, Fabric.publishPolicy, hrun]
    exact ⟨rfl, rfl, rfl⟩
  | true =>
    -- the store is asked with the policy as the clock stamps it
    generalize hstamped : (if policy.publishedAt.ns == 0 then { policy with publishedAt := now }
      else policy) = stamped
    have hrefuses := @PolicyStore.publish_refused f.config.limits f.policies stamped
    have hchanges := @PolicyStore.publish_changes f.config.limits f.policies stamped
    rcases hpublish : PolicyStore.publish f.config.limits f.policies stamped
      with ⟨published, policies⟩
    rw [hpublish] at hrefuses hchanges
    cases published with
    | error status =>
      refine .refused (by simp only [changed, hrun, hstamped, hpublish]) ?_
      simp only [run, Fabric.publishPolicy, hrun, hstamped, hpublish]
      exact ⟨rfl, (hrefuses rfl).1, rfl⟩
    | ok ref =>
      have hchanged : (Registration.publishPolicy policy).changed f now =
          some ({ f with policies := policies }, .policy,
            (policies.get ref.id).bind fun stored =>
              (encodePolicy ⟨encodeCapacityBytes, [], none⟩ stored).finish) := by
        simp only [changed, hrun, hstamped, hpublish]
      obtain ⟨hokRecord, hmade⟩ : ((Registration.publishPolicy policy).run f a now).1.isOk =
            (record { f with policies := policies } a now .policy
              ((policies.get ref.id).bind fun stored =>
                (encodePolicy ⟨encodeCapacityBytes, [], none⟩ stored).finish)).1.isOk ∧
          ((Registration.publishPolicy policy).run f a now).2 =
            (record { f with policies := policies } a now .policy
              ((policies.get ref.id).bind fun stored =>
                (encodePolicy ⟨encodeCapacityBytes, [], none⟩ stored).finish)).2 := by
        simp only [run, Fabric.publishPolicy, hrun, hstamped, hpublish]
        cases policies.get ref.id with
        | error => exact ⟨rfl, rfl⟩
        | ok stored =>
          simp only [Except.bind]
          generalize (encodePolicy ⟨encodeCapacityBytes, [], none⟩ stored).finish = payload
          cases payload with
          | error => exact ⟨rfl, rfl⟩
          | ok bytes =>
            simp only [record]
            generalize Fabric.journalRecord _ a .policy bytes now.ns = journaled
            obtain ⟨status, g⟩ := journaled
            cases hok : status.isOk <;> simp [hok, Status.isOk_success]
      refine .of_record hchanged hokRecord hmade ?_ ?_
      · -- no record for want of the stored policy, or of room in the buffer
        intro s hs
        cases hget : policies.get ref.id with
        | error status =>
          rw [hget] at hs
          obtain rfl := Except.error.inj hs
          exact PolicyStore.get_refused hget
        | ok stored =>
          rw [hget, Except.bind] at hs
          exact ((ByteWriter.Roomy.fresh _).policy stored).refused hs
      · refine iff_of_false (fun h => hchanges rfl h.policies) ?_
        rintro ⟨_, _, heq, _⟩
        cases heq

theorem ends_removePolicy (f : Fabric) (a : Answers) (now : Instant) (id : PolicyId) :
    Ends f a now (.removePolicy id) := by
  have hrefuses := @PolicyStore.remove_refused f.policies id
  have hchanges := @PolicyStore.remove_changes f.policies id
  rcases hremove : PolicyStore.remove f.policies id with ⟨status, policies⟩
  rw [hremove] at hrefuses hchanges
  cases hrun : f.running with
  | false =>
    refine .refused (by simp [changed, hrun]) ?_
    simp only [run, Fabric.removePolicy, hrun]
    exact ⟨rfl, rfl, rfl⟩
  | true =>
    cases hok : status.isOk with
    | false =>
      refine .refused (by simp [changed, hremove, hok]) ?_
      simp only [run, Fabric.removePolicy, hrun, hremove, hok]
      exact ⟨rfl, hrefuses hok, rfl⟩
    | true =>
      have hchanged : (Registration.removePolicy id).changed f now =
          some ({ f with policies := policies }, .policyRemoved,
            (encodeIdentityU64 ⟨64, [], none⟩ id.value).finish) := by
        simp only [changed, hremove, hrun, hok, Bool.and_self, if_true]
      have hrecord : (Registration.removePolicy id).run f a now =
          record { f with policies := policies } a now .policyRemoved
            (encodeIdentityU64 ⟨64, [], none⟩ id.value).finish := by
        simp only [run, Fabric.removePolicy, hrun, hremove, hok]
        generalize (encodeIdentityU64 ⟨64, [], none⟩ id.value).finish = payload
        cases payload <;> rfl
      refine .of_record hchanged (by rw [hrecord]) (by rw [hrecord])
        (fun s hs => ((ByteWriter.Roomy.fresh 64).u64v id.value).refused hs) ?_
      · refine iff_of_false (fun h => hchanges hok h.policies) ?_
        rintro ⟨_, _, heq, _⟩
        cases heq

/-- Registering a handle is no change exactly when its identity has that handle already. -/
theorem register_same_iff {backend : BackendPtr} {desc : BackendDescriptor} :
    (match f.backends.findIdx? (·.1 == desc.ref.id) with
      | some i => f.backends.set i (desc.ref.id, backend)
      | none => f.backends ++ [(desc.ref.id, backend)]) = f.backends ↔
      f.backendPtr desc.ref.id = some backend := by
  unfold Fabric.backendPtr
  cases hfind : f.backends.findIdx? (·.1 == desc.ref.id) with
  | none =>
    rw [find?_of_findIdx?_none hfind]
    refine iff_of_false (fun hsame => ?_) nofun
    exact List.cons_ne_nil _ _ (List.append_right_eq_self.1 hsame)
  | some i =>
    obtain ⟨⟨id, held⟩, hheld, hid⟩ := getElem?_of_findIdx? hfind
    obtain rfl := eq_of_beq hid
    rw [find?_of_findIdx? hfind, hheld, Option.map_some]
    constructor
    · intro hsame
      exact congrArg some (Prod.mk.inj (eq_of_set_eq hheld hsame)).2.symm
    · intro hsame
      obtain rfl := Option.some.inj hsame
      obtain ⟨hlt, hget⟩ := List.getElem?_eq_some_iff.1 hheld
      rw [← hget]
      exact List.set_getElem_self hlt

theorem ends_registerBackend (f : Fabric) (a : Answers) (now : Instant)
    (backend : Option BackendPtr) (desc : BackendDescriptor) :
    Ends f a now (.registerBackend backend desc) := by
  cases backend with
  | none => exact .refused rfl ⟨rfl, rfl, rfl⟩
  | some backend =>
    have hkept : ∀ s : Status, f.SameRegistries (s, f).2 := fun _ => ⟨rfl, rfl, rfl⟩
    cases hvalid : (Fabric.checkDescriptor f.config.limits desc).isOk with
    | false =>
      refine .refused (by simp [changed, hvalid]) ?_
      simp only [run, hvalid]
      exact hkept _
    | true =>
      cases hrun : f.running with
      | false =>
        refine .refused (by simp [changed, hrun]) ?_
        simp only [run, hvalid, Fabric.registerBackend, hrun]
        exact hkept _
      | true =>
        cases hfull : (f.backends.findIdx? (·.1 == desc.ref.id)).isNone &&
            decide (f.backends.length ≥ f.config.limits.maxBackends.toNat) with
        | true =>
          refine .refused (by simp only [changed, hfull]; simp) ?_
          simp only [run, hvalid, Fabric.registerBackend, hrun, hfull]
          exact hkept _
        | false =>
          have hchanged : (Registration.registerBackend (some backend) desc).changed f now =
              some ({ f with backends :=
                match f.backends.findIdx? (·.1 == desc.ref.id) with
                | some i => f.backends.set i (desc.ref.id, backend)
                | none => f.backends ++ [(desc.ref.id, backend)] }, .backendRegistration,
                (encodeBackendDescriptor ⟨1024, [], none⟩ desc).finish) := by
            simp only [changed, hrun, hvalid, hfull, Bool.not_false, Bool.and_self, if_true]
          have hrecord : (Registration.registerBackend (some backend) desc).run f a now =
              record { f with backends :=
                match f.backends.findIdx? (·.1 == desc.ref.id) with
                | some i => f.backends.set i (desc.ref.id, backend)
                | none => f.backends ++ [(desc.ref.id, backend)] } a now .backendRegistration
                (encodeBackendDescriptor ⟨1024, [], none⟩ desc).finish := by
            simp only [run, hvalid, Fabric.registerBackend, hrun, hfull]
            generalize (encodeBackendDescriptor ⟨1024, [], none⟩ desc).finish = payload
            cases payload <;> rfl
          refine .of_record hchanged (by rw [hrecord]) (by rw [hrecord])
            (fun s hs => ((ByteWriter.Roomy.fresh 1024).backendDescriptor desc).refused hs) ?_
          -- registering the handle an identity has is the one change that changes nothing
          constructor
          · intro h
            exact ⟨backend, desc, rfl, register_same_iff.1 h.backends⟩
          · rintro ⟨_, _, heq, hheld⟩
            cases heq
            exact ⟨rfl, rfl, register_same_iff.2 hheld⟩

theorem ends (f : Fabric) (a : Answers) (now : Instant) : ∀ op, Ends f a now op
  | .bindFlow binding => ends_bindFlow f a now binding
  | .unbindFlow flow => ends_unbindFlow f a now flow
  | .publishPolicy policy => ends_publishPolicy f a now policy
  | .removePolicy id => ends_removePolicy f a now id
  | .registerBackend backend desc => ends_registerBackend f a now backend desc

end Registration

/-- For every state, clock and answer of the files: a refused operation leaves the registries as
they were exactly when its change was not admitted, or its record was taken, or the handle it
registers was registered already. -/
theorem refused_keeps_registries_iff (f : Fabric) (a : Answers) (now : Instant)
    (op : Registration) :
    ((op.run f a now).1.isOk = false → f.SameRegistries (op.run f a now).2) ↔
      ∀ f₁ type payload, op.changed f now = some (f₁, type, payload) →
        f₁.Takes a now type payload ∨ op.Repeats f := by
  cases Registration.ends f a now op with
  | refused hnone hkept =>
    refine iff_of_true (fun _ => hkept) fun f₁ type payload hsome => ?_
    rw [hnone] at hsome
    cases hsome
  | @made f₁ type payload hsome hmade hok hsame =>
    constructor
    · intro hkeeps f₁' type' payload' hsome'
      obtain ⟨rfl, hrest⟩ := Prod.mk.inj (Option.some.inj (hsome.symm.trans hsome'))
      obtain ⟨rfl, rfl⟩ := Prod.mk.inj hrest
      by_cases htaken : f₁.Takes a now type payload
      · exact .inl htaken
      · have hkept := hkeeps (Bool.eq_false_iff.2 fun hrun => htaken (hok.1 hrun))
        exact .inr (hsame.1 ⟨hmade.bindings.symm.trans hkept.bindings,
          hmade.policies.symm.trans hkept.policies, hmade.backends.symm.trans hkept.backends⟩)
    · intro hrecorded hrefused
      rcases hrecorded f₁ type payload hsome with htaken | hrepeats
      · rw [hok.2 htaken] at hrefused
        cases hrefused
      · have hkept := hsame.2 hrepeats
        exact ⟨hmade.bindings.trans hkept.bindings, hmade.policies.trans hkept.policies,
          hmade.backends.trans hkept.backends⟩

open Scenario in
/-- A coordinator whose journal takes nothing refuses a binding and keeps it. -/
theorem refused_bound : journalingStarted.Reachable ∧
    (Registration.run journalingStarted.shared failing answers.now (.bindFlow binding)).1.isOk =
      false ∧
    journalingStarted.shared.bindings = [] ∧
    (Registration.run journalingStarted.shared failing answers.now
      (.bindFlow binding)).2.bindings = [⟨binding, true⟩] :=
  ⟨⟨1, Run.zero.succ trivial (.restart ⟨journaling, { answers with recoverNow := answers.now },
    rfl⟩)⟩, by decide +kernel, by decide +kernel, by decide +kernel⟩

end Pacing
