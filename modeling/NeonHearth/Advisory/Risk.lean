import Mathlib
import NeonHearth.Data.Except

/-!
# Advisories and the risk of a device

Several advisories with one source id are composed to one risk (`match.rs` of the advisories).  The
fold keeps the first one of values that are ranked alike, so the order matters where two different
values share the highest rank (`unlikeGroup_ordered`), and only there (`composeRisk_perm_iff`).
-/

namespace NeonHearth.Advisory

open List

/-- Who has published an advisory. -/
inductive AdvisorySource where
  | nvd
  | cisaKev
  | vendor
  deriving DecidableEq

/-- How bad a vulnerability is. -/
inductive Severity where
  | none
  | low
  | medium
  | high
  | critical
  | unknown
  deriving DecidableEq

/-- What is known of exploits. -/
inductive Exploitability where
  | none
  | proofOfConcept
  | activeKnownExploitation
  | unknown
  deriving DecidableEq

/-- Whether the device can be reached. -/
inductive Exposure where
  | notExposed
  | potentiallyExposed
  | exposed
  | unknown
  deriving DecidableEq

/-- How sure the evidence of a device is. -/
inductive Confidence where
  | low
  | medium
  | high
  deriving DecidableEq

/-- What an advisory recommends. -/
inductive Remediation where
  | upgrade
  | mitigate
  | monitor
  | none
  | unknown
  deriving DecidableEq

/-- What is composed of an advisory. -/
structure AdvisoryInput where
  source : AdvisorySource
  sourceId : String
  severity : Severity
  exploitability : Exploitability
  remediation : Remediation

/-- The risk of a device. -/
structure RiskDimensions where
  severity : Severity
  exploitability : Exploitability
  exposure : Exposure
  confidence : Confidence
  remediation : Remediation
  deriving DecidableEq

/-- What is known of the device. -/
structure DeviceEvidence where
  exposure : Exposure
  confidence : Confidence

/-- Why a group is not composed. -/
inductive MatchError where
  | invalidGroup
  | mixedSourceIds
  deriving DecidableEq

/-- The value with the higher rank, and the first one of two with the same. -/
def maxBy {α : Type} (rank : α → ℕ) (a b : α) : α := if rank a < rank b then b else a

/-- The rank of a severity; `none` and `low` share one. -/
def rankSeverity : Severity → ℕ
  | .none => 1
  | .low => 1
  | .medium => 2
  | .high => 3
  | .critical => 4
  | .unknown => 0

/-- `max_severity`. -/
def maxSeverity : Severity → Severity → Severity := maxBy rankSeverity

/-- The rank of an exploitability; `none` and `proofOfConcept` share one. -/
def rankExploitability : Exploitability → ℕ
  | .none => 1
  | .proofOfConcept => 1
  | .activeKnownExploitation => 2
  | .unknown => 0

/-- `max_exploitability`. -/
def maxExploitability : Exploitability → Exploitability → Exploitability := maxBy rankExploitability

/-- The rank of a remediation; `none` and `monitor` share one. -/
def rankRemediation : Remediation → ℕ
  | .none => 1
  | .monitor => 1
  | .mitigate => 2
  | .upgrade => 3
  | .unknown => 0

/-- `max_remediation`. -/
def maxRemediation : Remediation → Remediation → Remediation := maxBy rankRemediation

/-- The rank of a confidence. -/
def rankConfidence : Confidence → ℕ
  | .low => 0
  | .medium => 1
  | .high => 2

/-- `max_confidence`. -/
def maxConfidence : Confidence → Confidence → Confidence := maxBy rankConfidence

/-- One pass of the loop.  The catalogue of known exploits only reports exploitation. -/
def RiskDimensions.add (risk : RiskDimensions) (a : AdvisoryInput) : RiskDimensions :=
  if a.source ≠ .cisaKev then
    { risk with
      severity := maxSeverity risk.severity a.severity
      remediation := maxRemediation risk.remediation a.remediation
      exploitability := maxExploitability risk.exploitability a.exploitability }
  else if a.exploitability = .activeKnownExploitation then
    { risk with exploitability := .activeKnownExploitation }
  else risk

/-- The risk before the first advisory. -/
def start : RiskDimensions := ⟨.unknown, .unknown, .unknown, .low, .unknown⟩

/-- The exposure and the confidence come from the device, if there is evidence of it. -/
def RiskDimensions.onDevice (risk : RiskDimensions) : Option DeviceEvidence → RiskDimensions
  | some e => { risk with
      exposure := e.exposure, confidence := maxConfidence risk.confidence e.confidence }
  | none => risk

/-- `compose_risk`: the risk of a group with one source id. -/
def composeRisk (advisories : List AdvisoryInput) (device : Option DeviceEvidence) :
    Except MatchError RiskDimensions := do
  reject (advisories = [] ∨ 64 < advisories.length) .invalidGroup
  reject (∃ a ∈ advisories, ∃ b ∈ advisories.head?, a.sourceId ≠ b.sourceId) .mixedSourceIds
  let risk := advisories.foldl .add start
  pure (risk.onDevice device)

/-! ### The order of a group -/

section Fold

variable {α β : Type} {rank : α → ℕ} {bot : α} {l : List α}

/-- Two values of the highest rank in the list are the same. -/
def Untied (rank : α → ℕ) (l : List α) : Prop :=
  ∀ a ∈ l, ∀ b ∈ l, rank a = rank b → (∀ c ∈ l, rank c ≤ rank a) → a = b

instance Untied.decidable [DecidableEq α] (rank : α → ℕ) (l : List α) : Decidable (Untied rank l) :=
  List.decidableBAll _ l

theorem argmax_cons_eq_foldl (rank : α → ℕ) (bot l) :
    (bot :: l).argmax rank = some (l.foldl (maxBy rank) bot) := by
  induction l using reverseRecOn with
  | nil => rfl
  | append_singleton l a ih =>
    rw [← cons_append, argmax_concat, ih, foldl_concat, maxBy]
    exact (apply_ite some ..).symm

/-- A value of the highest rank that comes first is kept. -/
theorem foldl_maxBy_of_top {a : α} (htop : ∀ c ∈ l, rank c ≤ rank a) : l.foldl (maxBy rank) a = a := by
  induction l with
  | nil => rfl
  | cons c l ih =>
    have hc : maxBy rank a c = a := if_neg (not_lt.2 (htop c mem_cons_self))
    rw [foldl_cons, hc]
    exact ih fun x hx => htop x (mem_cons_of_mem c hx)

/-- **A fold does not depend on the order** just when the values of the highest rank are the same. -/
theorem foldl_maxBy_perm_iff (bot) (hbot : ∀ a, rank a ≤ rank bot → a = bot) (f : β → α)
    (group : List β) :
    (∀ group', group.Perm group' →
      (group'.map f).foldl (maxBy rank) bot = (group.map f).foldl (maxBy rank) bot) ↔
    Untied rank (group.map f) := by
  constructor
  · -- either one of two values of the highest rank may be the first
    intro h a ha b hb hrank htop
    have hfirst : ∀ x ∈ group.map f, rank x = rank a → (group.map f).foldl (maxBy rank) bot = x := by
      intro x hx hxa
      obtain ⟨y, hy, rfl⟩ := mem_map.1 hx
      obtain ⟨rest, hperm⟩ : ∃ rest, group.Perm (y :: rest) := by
        obtain ⟨s, t, rfl⟩ := append_of_mem hy
        exact ⟨s ++ t, perm_middle⟩
      have hy' : maxBy rank bot (f y) = f y := by
        unfold maxBy
        split_ifs with hlt
        · rfl
        · exact (hbot _ (not_lt.1 hlt)).symm
      rw [← h _ hperm, map_cons, foldl_cons, hy']
      refine foldl_maxBy_of_top fun c hc => hxa ▸ htop c ?_
      exact (hperm.map f).symm.subset (mem_cons_of_mem _ hc)
    rw [← hfirst a ha rfl, hfirst b hb hrank.symm]
  · intro h group' hperm
    have hx := argmax_cons_eq_foldl rank bot (group.map f)
    have hx' := argmax_cons_eq_foldl rank bot (group'.map f)
    generalize (group.map f).foldl (maxBy rank) bot = x at hx ⊢
    generalize (group'.map f).foldl (maxBy rank) bot = x' at hx' ⊢
    have hsame := ((hperm.map f).cons bot).subset
    have hmem' := ((hperm.map f).cons bot).symm.subset (argmax_mem hx')
    have hrank : rank x' = rank x :=
      le_antisymm (le_of_mem_argmax hmem' hx) (le_of_mem_argmax (hsame (argmax_mem hx)) hx')
    obtain rfl | hmem := mem_cons.1 (argmax_mem hx)
    · exact hbot x' hrank.le
    obtain rfl | hmem' := mem_cons.1 hmem'
    · exact (hbot x hrank.ge).symm
    · exact (h x hmem x' hmem' hrank.symm fun c hc => le_of_mem_argmax (mem_cons_of_mem bot hc) hx).symm

end Fold

namespace AdvisoryInput

/-- The severity that an advisory adds to a risk. -/
def addedSeverity (a : AdvisoryInput) : Severity :=
  if a.source = .cisaKev then .unknown else a.severity

/-- The exploitability that an advisory adds to a risk. -/
def addedExploitability (a : AdvisoryInput) : Exploitability :=
  if a.source = .cisaKev ∧ a.exploitability ≠ .activeKnownExploitation then .unknown
  else a.exploitability

/-- The remediation that an advisory adds to a risk. -/
def addedRemediation (a : AdvisoryInput) : Remediation :=
  if a.source = .cisaKev then .unknown else a.remediation

end AdvisoryInput

open AdvisoryInput

/-- The dimensions are folded one by one. -/
theorem foldl_add (group : List AdvisoryInput) (risk : RiskDimensions) :
    group.foldl .add risk = { risk with
      severity := (group.map addedSeverity).foldl maxSeverity risk.severity
      exploitability := (group.map addedExploitability).foldl maxExploitability risk.exploitability
      remediation := (group.map addedRemediation).foldl maxRemediation risk.remediation } := by
  induction group generalizing risk with
  | nil => rfl
  | cons a group ih =>
    rw [foldl_cons, ih]
    obtain ⟨source, _, _, exploitability, _⟩ := a
    obtain ⟨severity, exploited, _, _, remediation⟩ := risk
    cases source with
    | cisaKev => cases exploitability <;> cases severity <;> cases exploited <;> cases remediation <;> rfl
    | _ => rfl

/-- **The order of a group does not matter** just when the group is too large to be composed, or in no
dimension two different values share the highest rank. -/
theorem composeRisk_perm_iff {group : List AdvisoryInput} {i : String}
    (hid : ∀ a ∈ group, a.sourceId = i) (device : Option DeviceEvidence) :
    (∀ group', group.Perm group' → composeRisk group' device = composeRisk group device) ↔
      64 < group.length ∨ Untied rankSeverity (group.map addedSeverity) ∧
        Untied rankExploitability (group.map addedExploitability) ∧
        Untied rankRemediation (group.map addedRemediation) := by
  have hcompose : ∀ group', group.Perm group' → composeRisk group' device =
      if group = [] ∨ 64 < group.length then .error .invalidGroup
      else .ok ((group'.foldl .add start).onDevice device) := by
    intro group' hperm
    have hone : ¬∃ a ∈ group', ∃ b ∈ group'.head?, a.sourceId ≠ b.sourceId := by
      rintro ⟨a, ha, b, hb, hne⟩
      have hsub := hperm.symm.subset
      exact hne ((hid a (hsub ha)).trans (hid b (hsub (mem_of_mem_head? hb))).symm)
    simp only [composeRisk, reject, if_neg hone, ← length_eq_zero_iff, hperm.length_eq]
    split_ifs <;> rfl
  obtain rfl | hne := eq_or_ne group []
  · simp [Untied]
  by_cases hlen : 64 < group.length
  · exact iff_of_true (fun group' hperm => by simp [hcompose _ hperm, hcompose _ (.refl _), hlen])
      (.inl hlen)
  have hadd : ∀ group', group.Perm group' → (composeRisk group' device = composeRisk group device ↔
      (group'.foldl .add start).onDevice device = (group.foldl .add start).onDevice device) := by
    intro group' hperm
    simp [hcompose _ hperm, hcompose _ (.refl _), hne, hlen]
  rw [forall₂_congr hadd, ← foldl_maxBy_perm_iff .unknown (by rintro ⟨⟩ <;> decide),
    ← foldl_maxBy_perm_iff .unknown (by rintro ⟨⟩ <;> decide),
    ← foldl_maxBy_perm_iff .unknown (by rintro ⟨⟩ <;> decide), ← forall₂_and, ← forall₂_and]
  simp only [hlen, false_or]
  refine forall₂_congr fun group' hperm => ?_
  cases device <;> simp [foldl_add, RiskDimensions.onDevice, start, maxSeverity, maxExploitability,
    maxRemediation]

/-- A finding, and the report of its exploitation. -/
def sampleGroup : List AdvisoryInput :=
  [⟨.nvd, "CVE-2024-0001", .high, .none, .upgrade⟩,
    ⟨.cisaKev, "CVE-2024-0001", .unknown, .activeKnownExploitation, .unknown⟩]

theorem sampleGroup_composed :
    composeRisk sampleGroup none = .ok ⟨.high, .activeKnownExploitation, .unknown, .low, .upgrade⟩ ∧
      ∀ group, sampleGroup.Perm group → composeRisk group none = composeRisk sampleGroup none :=
  ⟨rfl, (composeRisk_perm_iff (i := "CVE-2024-0001") (by decide) none).2 (.inr (by decide))⟩

/-- What two sources say of one vulnerability. -/
def unlikeGroup : List AdvisoryInput :=
  [⟨.nvd, "CVE-2024-0001", .none, .none, .none⟩,
    ⟨.vendor, "CVE-2024-0001", .low, .proofOfConcept, .monitor⟩]

/-- **The first one of equal rank** is kept, so the risk depends on the order. -/
theorem unlikeGroup_ordered :
    composeRisk unlikeGroup none = .ok ⟨.none, .none, .unknown, .low, .none⟩ ∧
    composeRisk unlikeGroup.reverse none =
      .ok ⟨.low, .proofOfConcept, .unknown, .low, .monitor⟩ :=
  ⟨rfl, rfl⟩

end NeonHearth.Advisory
