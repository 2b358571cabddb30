import NeonHearth.Presence.Absorb

/-!
# What discovery observes

Discovery feeds the presence engine through `ingestEvents`, which refuses enforcement evidence.  So
an engine in which no device is blocked stays that way, and the transitions that discovery emits
never enter the blocked state.  They carry the next ids and the time of arrival, which for one
device never goes back (`ingestEvents_observed`).
-/

namespace NeonHearth.Presence

open List SortedMap

/-- No verified block has been recorded in the engine itself. -/
def PresenceEngine.Unblocked (engine : PresenceEngine) : Prop :=
  ∀ id d, engine.devices.get id = some d → d.blocked = false

/-- A transition of a device at an arrival that does not come from enforcement. -/
structure EmittedAt (id : DeviceId) (arrival : DateTime) (t : PresenceTransition) : Prop where
  deviceId : t.deviceId = id
  occurredAt : t.occurredAt = arrival
  toState : t.toState ≠ .blocked
  kind : isEnforcement t.trigger.kind = false

/-- Part of an ingestion: it emits transitions with the next ids and touches one device, which is
evaluated at the arrival. -/
structure Emitted (engine : PresenceEngine) (id : DeviceId) (arrival : DateTime)
    (events : List PresenceTransition) (engine' : PresenceEngine) : Prop where
  transitions : ∀ t ∈ events, EmittedAt id arrival t
  ids : events.map (·.transitionId) = List.range' engine.nextTransition events.length
  next : engine'.nextTransition = engine.nextTransition + events.length
  others : ∀ other, other ≠ id → engine'.devices.get other = engine.devices.get other
  device : ∃ d, engine'.devices.get id = some d ∧ d.blocked = false ∧ d.lastEvaluation = arrival

variable {d : DevicePresence}

namespace Emitted

variable {engine engine₁ engine₂ : PresenceEngine} {id : DeviceId} {arrival : DateTime}

theorem trans {events events'}
    (h : Emitted engine id arrival events engine₁) (h' : Emitted engine₁ id arrival events' engine₂) :
    Emitted engine id arrival (events ++ events') engine₂ where
  transitions t ht := (mem_append.1 ht).elim (h.transitions t) (h'.transitions t)
  ids := by
    rw [map_append, h.ids, h'.ids, h.next, range'_append_1, length_append]
  next := by rw [h'.next, h.next, length_append, Nat.add_assoc]
  others other hne := (h'.others other hne).trans (h.others other hne)
  device := h'.device

theorem setDevice (hb : d.blocked = false) (hl : d.lastEvaluation = arrival) :
    Emitted engine id arrival [] (engine.setDevice id d) where
  transitions _ ht := absurd ht not_mem_nil
  ids := rfl
  next := rfl
  others _ hne := get_insert_of_ne _ _ hne
  device := ⟨d, get_insert_self .., hb, hl⟩

theorem transition {t} (ht : EmittedAt id arrival t)
    (hid : t.transitionId = engine.nextTransition) (hb : d.blocked = false)
    (hl : d.lastEvaluation = arrival) :
    Emitted engine id arrival [t]
      { engine with
        nextTransition := engine.nextTransition + 1
        devices := engine.devices.insert id d } where
  transitions _ hu := mem_singleton.1 hu ▸ ht
  ids := by simp [hid]
  next := rfl
  others _ hne := get_insert_of_ne _ _ hne
  device := ⟨d, get_insert_self .., hb, hl⟩

end Emitted

variable {engine engine' : PresenceEngine} {e : PresenceEvidence} {arrival : DateTime}
  {events : List PresenceTransition}

theorem recompute_emitted {event}
    (h : engine.recompute e.deviceId arrival (some e) = .ok (event, engine'))
    (hk : isEnforcement e.kind = false) (hd : engine.devices.get e.deviceId = some d)
    (hb : d.blocked = false) (hl : d.lastEvaluation = arrival) :
    Emitted engine e.deviceId arrival event.toList engine' := by
  obtain ⟨d₁, hd₁, ⟨-, rfl, rfl⟩ | ⟨hne, rfl, rfl⟩⟩ := recompute_spec h
  · exact ⟨by simp, rfl, rfl, fun _ _ => rfl, d, hd, hb, hl⟩
  · obtain rfl := Option.some.inj (hd.symm.trans hd₁)
    refine .transition ⟨rfl, rfl, fun hblocked => ?_, hk⟩ rfl hb hl
    exact Bool.false_ne_true (hb.symm.trans (gated_eq_blocked.1 hblocked))

theorem ingestInto_emitted (h : engine.ingestInto d e arrival = .ok (events, engine'))
    (hk : isEnforcement e.kind = false) (hb : d.blocked = false) :
    Emitted engine e.deviceId arrival events engine' := by
  have hb₁ : (absorb engine.cfg d e arrival).blocked = false := (absorb_blocked hk).trans hb
  have hl₁ := (absorb_spec engine.cfg d e arrival).lastEvaluation
  obtain ⟨corrections, engine₁, hstart, hcases⟩ := ingestInto_cases h
  have hemitted : Emitted engine e.deviceId arrival corrections engine₁ := by
    cases hstart with
    | plain => exact .setDevice hb₁ hl₁
    | corrected hc ht =>
      subst ht
      refine .transition ⟨rfl, rfl, ?_, hk⟩ rfl hb₁ hl₁
      obtain rfl | rfl := correction_present hc <;> nofun
  obtain ⟨-, -, rfl, rfl, rfl⟩ | ⟨current, hrec, rfl⟩ := hcases
  · exact hemitted
  · obtain ⟨d₂, hd₂, hb₂, hl₂⟩ := hemitted.device
    exact hemitted.trans (recompute_emitted hrec hk hd₂ hb₂ hl₂)

/-- **An observation**: it is ignored, or it emits transitions of its device at its arrival, which
is not before the device was evaluated last. -/
theorem ingestEvents_observed (h : engine.ingestEvents e arrival = .ok (events, engine'))
    (hu : engine.Unblocked) :
    events = [] ∧ engine' = engine ∧ engine.devices.get e.deviceId ≠ none ∨
      Emitted engine e.deviceId arrival events engine' ∧
        ∀ d, engine.devices.get e.deviceId = some d → d.lastEvaluation ≤ arrival := by
  obtain ⟨haccepted, hcases⟩ := ingestAuthorized_spec h
  have hk : isEnforcement e.kind = false := by
    by_contra hk
    exact absurd (haccepted.authorized (Bool.eq_true_of_not_eq_false hk)) (by simp)
  obtain ⟨d, hd, -, hev, heq⟩ | ⟨d, hstart, -, -, hi⟩ := hcases
  · exact .inl ⟨hev, heq, by simp [hd]⟩
  cases hstart with
  | known hd hmono =>
    refine .inr ⟨ingestInto_emitted hi hk (hu _ d hd), fun d' hd' => ?_⟩
    obtain rfl := Option.some.inj (hd.symm.trans hd')
    exact hmono
  | added hnone => exact .inr ⟨ingestInto_emitted hi hk rfl, fun d hd => by simp [hnone] at hd⟩

end NeonHearth.Presence
