import NeonHearth.Identity.Restore

/-!
# What the owner says

What the owner says about a device is recorded under the id that stands for it at the time, and a device
shows the last record of the devices in its component.  When merges are undone, a device can lose the
component whose id the record carries, and with it what the owner said; or it can join devices with a
record that was meant for others.  Neither happens to a key under which the owner always names the id
that stands for the device (`NamesRoot`).

* `own_of_namesRoot` : what the owner said stays visible from the device;
* `undone_owner_value` : a value that is lost when a merge is undone, and one that is cleared for
  another device.
-/

namespace NeonHearth.Identity

open List Option IdentityEngine

namespace IdentityEngine

variable {engine engine' : IdentityEngine} {call : IdentityCall} {c : List DeviceId} {key : String}

/-- The owner names the id that stands for the device, if the call is about the key. -/
def NamesRoot (key : String) (engine : IdentityEngine) (call : IdentityCall) : Prop :=
  ∀ x ∈ call.states, x.2.1 = key → engine.resolve x.1 = .ok x.1
  deriving Decidable

/-- The owner says nothing under a key about some devices; a call that fails says nothing. -/
def SaysNothing (c : List DeviceId) (key : String) (engine : IdentityEngine) (call : IdentityCall) :
    Prop :=
  ∀ x ∈ call.states, x.1 ∈ c → x.2.1 = key → (engine.attempt call).isOk = false
  deriving Decidable

theorem attempt_of_states {id value at'} (h : call.states = some (id, key, value, at')) :
    engine.attempt call = engine.owner id key value at' := by
  cases call with
  | setOwnerFact | clearOwnerFactAt =>
    cases h
    rfl
  | _ => cases h

/-- After the record nothing was said under its key about the devices. -/
def Stands (c : List DeviceId) (o : OwnerAuditRecord) (engine : IdentityEngine) : Prop :=
  ∃ before later, engine.owners = before ++ o :: later ∧ ∀ x ∈ later, x.key = o.key → x.deviceId ∉ c

theorem Stands.of_change {o} (h : engine.Stands c o) (hnames : NamesRoot o.key engine call)
    (hnothing : SaysNothing c o.key engine call) (hchange : Change engine call engine') :
    engine'.Stands c o := by
  obtain ⟨before, later, howners, hlater⟩ := h
  obtain heq | ⟨id, key, value, at', root, hcall, howner, hroot, heq⟩ := hchange.effects.2.2
  · exact ⟨before, later, heq.trans howners, hlater⟩
  refine ⟨before, later ++ [⟨engine.nextOwner, root, key, value, at'⟩], by simp [heq, howners], ?_⟩
  intro x hx hkey
  obtain hx | hx := mem_append.1 hx
  · exact hlater x hx hkey
  -- The record carries the id that the owner named.
  obtain rfl := mem_singleton.1 hx
  obtain rfl : root = id := Except.ok.inj (hroot.symm.trans (hnames _ hcall hkey))
  intro hmem
  have hfails := hnothing _ hcall hmem hkey
  rw [attempt_of_states hcall, howner] at hfails
  cases hfails

/-- A record that stands is what the devices show. -/
theorem Stands.own_eq {o} (h : engine.Stands c o) (hmem : o.deviceId ∈ c) :
    engine.own c o.key = o.value := by
  obtain ⟨before, later, howners, hlater⟩ := h
  have hnone : later.reverse.find? (fun x => x.deviceId ∈ c ∧ x.key = o.key) = none := by
    refine find?_eq_none.2 fun x hx hshown => ?_
    obtain ⟨hdevice, hkey⟩ := of_decide_eq_true hshown
    exact hlater x (mem_reverse.1 hx) hkey hdevice
  rw [own, howners, reverse_append, reverse_cons, append_assoc, find?_append, hnone,
    none_or, singleton_append, find?_cons_of_pos (by simpa using hmem), bind_some]

end IdentityEngine

/-- **The owner's word**: if the owner, under a key, always names the id that stands for a device, then
what they set for a device stays visible from it, as long as they say nothing else under that key about
a device that is then in its component. -/
theorem own_of_namesRoot {engine engine₁ engine₂ : IdentityEngine} {d : DeviceId} {key v : String}
    {at' : DateTime} {calls : List IdentityCall} {c : List DeviceId}
    (h : identityMachine.Reachable engine) (hnames : engine.NamesRoot key (.setOwnerFact d key v at') ∧
      identityMachine.Guarded (IdentityEngine.NamesRoot key) engine₁ calls)
    (hset : engine.setOwnerFact d key v at' = .ok engine₁)
    (hexec : identityMachine.exec engine₁ calls = some engine₂) (hc : engine₂.component d = .ok c)
    (hnothing : identityMachine.Guarded (IdentityEngine.SaysNothing c key) engine₁ calls) :
    engine₂.own c key = some v := by
  have hstore := storeOk_of_reachable h
  obtain ⟨root, hroot, -, -, -, heq⟩ := owner_eq_ok.1 hset
  obtain rfl : root = d := Except.ok.inj (hroot.symm.trans (hnames.1 _ rfl rfl))
  have hstands : engine₁.Stands c ⟨engine.nextOwner, root, key, some v, at'⟩ :=
    ⟨engine.owners, [], by rw [← heq], by simp⟩
  have hinvariant : engine₂.StoreOk ∧
      engine₂.Stands c ⟨engine.nextOwner, root, key, some v, at'⟩ := by
    refine Machine.exec_invariant
      (G := fun engine call => engine.NamesRoot key call ∧ IdentityEngine.SaysNothing c key engine call)
      (I := fun x => x.StoreOk ∧ x.Stands c ⟨engine.nextOwner, root, key, some v, at'⟩)
      ?_ ⟨hstore.owner hset, hstands⟩ (hnames.2.and hnothing) hexec
    rintro engine call engine' ⟨hstore, hstands⟩ ⟨hnames, hnothing⟩ hstep
    cases hstep
    have hchange := hstore.change call
    exact ⟨hstore.of_change hchange, hstands.of_change hnames hnothing hchange⟩
  exact hinvariant.2.own_eq (self_mem_component hc)

/-- The merge is undone, and the owner says where the other device is. -/
def separated : List IdentityCall :=
  [.undo 1, .setOwnerFact 2 "room" "hall" (halfSecond 6)]

theorem separated_own : ∃ engine engine₁ engine₂ : IdentityEngine,
    identityMachine.Reachable engine ∧
    engine.setOwnerFact 1 "room" "kitchen" (halfSecond 4) = .ok engine₁ ∧
    identityMachine.exec engine₁ separated = some engine₂ ∧ engine₂.component 1 = .ok [1] ∧
    engine₂.own [1] "room" = some "kitchen" := by
  obtain ⟨engine, hreachable, engine₁, hset, engine₂, hexec', hc, hroot, hnames, hnothing⟩ :=
    reachable_of_run .default [1, 2, 3] (mergedDevices.take 3) (p := fun engine =>
      ∃ engine₁, engine.setOwnerFact 1 "room" "kitchen" (halfSecond 4) = .ok engine₁ ∧
      ∃ engine₂, identityMachine.exec engine₁ separated = some engine₂ ∧
        engine₂.component 1 = .ok [1] ∧
        engine.NamesRoot "room" (.setOwnerFact 1 "room" "kitchen" (halfSecond 4)) ∧
        identityMachine.Guarded (IdentityEngine.NamesRoot "room") engine₁ separated ∧
        identityMachine.Guarded (IdentityEngine.SaysNothing [1] "room") engine₁ separated)
      (by decide +kernel)
  exact ⟨engine, engine₁, engine₂, hreachable, hset, hexec', hc,
    own_of_namesRoot hreachable ⟨hroot, hnames⟩ hset hexec' hc hnothing⟩

/-- What a device shows under a key after successful calls, with its component. -/
def shown (ids : List DeviceId) (calls : List IdentityCall) (d : DeviceId) (key : String) :
    Except IdentityError (List DeviceId × Option String) := do
  let engine ← new .default ids
  let engine ← calls.foldlM attempt engine
  let c ← engine.component d
  pure (c, engine.own c key)

/-- Three devices; the owner says where the third one is, clears the place of the second one while that
is merged with the first, and then merges the first and the third. -/
def clearedForAnother : List IdentityCall :=
  [.observeAt none [sureFact .service "serial" "s-1"] (halfSecond 0),
    .observeAt none [sureFact .service "serial" "s-2"] (halfSecond 0),
    .observeAt none [sureFact .service "serial" "s-3"] (halfSecond 0),
    .setOwnerFact 3 "room" "kitchen" (halfSecond 2), .proposeMerge 1 2 .one [.service] ["same"],
    .decide 1 .accept, .clearOwnerFactAt 2 "room" (halfSecond 4), .undo 1,
    .proposeMerge 1 3 .one [.service] ["same"], .decide 2 .accept]

/-- Values that the owner set for a device, and that it does not show any more. -/
theorem undone_owner_value : shown [1, 2, 3] mergedDevices 2 "room" = .ok ([1, 2], some "kitchen") ∧
    shown [1, 2, 3] (mergedDevices ++ [.undo 1]) 2 "room" = .ok ([2], none) ∧
    shown [1, 2, 3] (clearedForAnother.take 8) 3 "room" = .ok ([3], some "kitchen") ∧
    shown [1, 2, 3] clearedForAnother 3 "room" = .ok ([1, 3], none) := by
  decide +kernel

end NeonHearth.Identity
