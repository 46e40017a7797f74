import Ultrav.DomainReport
import Ultrav.UpdateMachine

/-!
# Updates of vCPUs and memory, as they are reported

libvirt keeps the current size of a stopped machine and a maximum. `UpdateVirtualMachine` sets the
first, and `domainToModel` reports the second.

* `validateUpdateVM` — what the API accepts.
* `SizedMachine` — a configuration with the maxima; `Prints` — its document.
* `TakesEffect` — the machine is reported with what was asked for.
* `takesEffect_iff` — which updates do.
-/

namespace Ultrav

open Xml

/-- `validateUpdateVM`: a message, empty when the update is accepted. -/
def validateUpdateVM (req : VMUpdate) : String :=
  if req.vcpus.any fun n => n < 1 || n > 64 then "vcpus must be between 1 and 64"
  else if req.memoryBytes.any fun n => n < 16 * 1024 * 1024 then
    "memoryBytes must be at least 16 MiB"
  else if req.isoId.any fun isoID => isoID ≠ "" && !isoValidID isoID then
    "isoId must be a valid ISO filename"
  else ""

/-- What libvirt keeps of a stopped machine. The configuration has its current size, with the
memory in KiB. -/
structure SizedMachine where
  config : MachineConfig
  maxVcpus : ℤ
  /-- in KiB -/
  maxMemory : ℤ
  deriving DecidableEq, Repr

/-- What libvirt prints of the size: the maxima as the text of `memory` and `vcpu`, and the
current size next to them. -/
structure Prints (doc : String) (m : SizedMachine) : Prop where
  parses : ∃ root, parse doc = some root ∧
    root.numberAt ["memory"] = some m.maxMemory ∧ root.lastAttr ["memory"] "unit" = "KiB" ∧
    root.numberAt ["currentMemory"] = some m.config.memory ∧
    root.lastAttr ["currentMemory"] "unit" = "KiB" ∧
    root.numberAt ["vcpu"] = some m.maxVcpus ∧
    root.lastAttr ["vcpu"] "current" =
      if m.config.vcpus = m.maxVcpus then "" else toString m.config.vcpus

/-- `UpdateVirtualMachine`, of which libvirt keeps the maxima. -/
def SizedMachine.update (env : UpdateEnv) (req : VMUpdate) (m : SizedMachine) :
    Except UpdateError Unit × SizedMachine :=
  let result := updateVirtualMachine env req m.config
  (result.1, { m with config := result.2 })

/-- The machine is reported with what was asked for, memory in whole KiB. -/
structure TakesEffect (req : VMUpdate) (model : DomainModel) : Prop where
  vcpus : ∀ n, req.vcpus = some n → model.vcpus = n
  memory : ∀ n, req.memoryBytes = some n → model.memoryBytes = (n + 1023) / 1024 * 1024

section Sizes

variable {env : UpdateEnv} {req : VMUpdate} {m : SizedMachine}

/-- Memory that is accepted is at least 16 MiB. -/
theorem le_of_validateUpdateVM (hvalid : validateUpdateVM req = "") {n : ℤ}
    (hn : req.memoryBytes = some n) : 16 * 1024 * 1024 ≤ n := by
  rw [validateUpdateVM, hn, Option.any_some] at hvalid
  split at hvalid
  · exact absurd hvalid (by decide)
  split at hvalid
  · exact absurd hvalid (by decide)
  rename_i hmemory
  rw [decide_eq_true_eq] at hmemory
  omega

theorem normalizeBytes_kib (n : ℤ) : normalizeBytes n "KiB" = n * 1024 := by
  simp [normalizeBytes]

/-- The maxima are reported. -/
theorem domainToModel_of_prints {doc : String} (h : Prints doc m) (name : String) :
    ∃ model, domainToModel name doc = some model ∧ model.vcpus = m.maxVcpus ∧
      (m.maxMemory ≠ 0 → model.memoryBytes = m.maxMemory * 1024) := by
  obtain ⟨root, hparse, hmemory, hunit, hcurrent, -, hvcpus, -⟩ := h.parses
  simp only [domainToModel, hparse, hmemory, hunit, hcurrent, hvcpus, Option.bind_eq_bind,
    Option.bind_some, normalizeBytes_kib]
  refine ⟨_, rfl, rfl, fun hne => ?_⟩
  have hbytes : m.maxMemory * 1024 ≠ 0 := by
    omega
  exact if_neg hbytes

/-- Memory is set in an update that goes through. -/
theorem memory_of_ok (hok : (m.update env req).1 = .ok ()) {n : ℤ}
    (hn : req.memoryBytes = some n) : env.memoryFails = false := by
  have hset : ∀ c : MachineConfig, ∀ f : Unit → Attempt UpdateError MachineConfig Unit,
      ((applyMemory env req.memoryBytes >>= f) c).1 = .ok () → env.memoryFails = false := by
    intro c f h
    rw [hn, applyMemory, Attempt.bind_assoc, Attempt.failIf_bind_apply] at h
    split at h
    · cases h
    · rename_i hfails
      exact Bool.eq_false_iff.mpr hfails
  change (updateVirtualMachine env req m.config).1 = .ok () at hok
  rw [updateVirtualMachine, Attempt.failIf_bind_apply] at hok
  split at hok
  · cases hok
  rw [Attempt.failIf_bind_apply] at hok
  split at hok
  · cases hok
  rw [Attempt.failIf_bind_apply] at hok
  split at hok
  · cases hok
  cases hv : req.vcpus with
  | none =>
    rw [hv, applyVcpus, Attempt.pure_bind] at hok
    exact hset _ _ hok
  | some v =>
    rw [hv, applyVcpus, Attempt.bind_assoc, Attempt.failIf_bind_apply] at hok
    split at hok
    · cases hok
    rw [Attempt.modify_bind_apply] at hok
    exact hset _ _ hok

end Sizes

/-- **Updates take effect** exactly when they ask for no memory, and for as many vCPUs as the
machine can have. -/
theorem takesEffect_iff {env : UpdateEnv} {req : VMUpdate} {m : SizedMachine} {name : String}
    {print : SizedMachine → String} (hprint : ∀ m, Prints (print m) m)
    -- memory above the maximum is refused
    (hlimit : ∀ n, req.memoryBytes = some n → m.maxMemory < n → env.memoryFails = true)
    (hvalid : validateUpdateVM req = "") (hsome : req.vcpus.isSome || req.memoryBytes.isSome)
    (hok : (m.update env req).1 = .ok ()) :
    (∃ model, domainToModel name (print (m.update env req).2) = some model ∧
      TakesEffect req model) ↔ req.memoryBytes = none ∧ req.vcpus = some m.maxVcpus := by
  obtain ⟨model, hmodel, hvcpus, hmemory⟩ := domainToModel_of_prints (hprint _) name
  rw [hmodel]
  constructor
  · rintro ⟨model', hmodel', heffect⟩
    obtain rfl := Option.some.inj hmodel'
    have hnone : req.memoryBytes = none := by
      cases hn : req.memoryBytes with
      | none => rfl
      | some n =>
        -- a number of bytes is taken for one of KiB
        have hle : n ≤ m.maxMemory := by
          by_contra hlt
          have hfails := hlimit n hn (by omega)
          rw [memory_of_ok hok hn] at hfails
          cases hfails
        have hlarge := le_of_validateUpdateVM hvalid hn
        have hreported := heffect.memory n hn
        have hmax : (m.update env req).2.maxMemory = m.maxMemory := rfl
        rw [hmemory (by omega)] at hreported
        omega
    refine ⟨hnone, ?_⟩
    rw [hnone, Option.isSome_none, Bool.or_false] at hsome
    obtain ⟨n, hn⟩ := Option.isSome_iff_exists.mp hsome
    rw [hn, ← heffect.vcpus n hn, hvcpus]
    rfl
  · rintro ⟨hnone, hsome⟩
    refine ⟨model, rfl, fun n hn => ?_, fun n hn => ?_⟩
    · rw [hsome] at hn
      rw [hvcpus, ← Option.some.inj hn]
      rfl
    · rw [hnone] at hn
      cases hn

/-! ## A machine that is made smaller -/

/-- The size of a domain, as it is printed. -/
def sizeXML (m : SizedMachine) : Element String :=
  .mk "domain" [("type", "kvm")] "" [
    .mk "memory" [("unit", "KiB")] (toString m.maxMemory) [],
    .mk "currentMemory" [("unit", "KiB")] (toString m.config.memory) [],
    .mk "vcpu" ([("placement", "static")] ++
      present (m.config.vcpus ≠ m.maxVcpus) [("current", toString m.config.vcpus)])
      (toString m.maxVcpus) []]

def sizeDocument (m : SizedMachine) : String := .ofList (declaration ++ (sizeXML m).write 0)

theorem valid_sizeXML (m : SizedMachine) : (sizeXML m).valid = true := by
  have hall : ∀ b : Bool, Element.valid (.mk "domain" [("type", ())] () [
      .mk "memory" [("unit", ())] () [], .mk "currentMemory" [("unit", ())] () [],
      .mk "vcpu" ([("placement", ())] ++ present b [("current", ())]) () []]) = true := by
    decide
  rw [← Element.valid_map fun _ => (), sizeXML]
  simp only [Element.map_mk, List.map_append, map_present, List.map_cons, List.map_nil]
  exact hall _

theorem legalText_sizeXML (m : SizedMachine) : (sizeXML m).map legalText = sizeXML m := by
  have hlit : legalText "kvm" = "kvm" ∧ legalText "" = "" ∧ legalText "KiB" = "KiB" ∧
      legalText "static" = "static" := by
    decide
  have hnumber : ∀ n : ℤ, legalText (toString n) = toString n :=
    fun n => legalText_eq_self (legalString_toString n)
  simp only [sizeXML, Element.map_mk, List.map_append, map_present, List.map_cons, List.map_nil,
    hlit, hnumber]

/-- **Printing** the size of a machine. -/
theorem prints_sizeDocument (m : SizedMachine) : Prints (sizeDocument m) m := by
  have hfollow : (sizeXML m).follow ["memory"] =
        [.mk "memory" [("unit", "KiB")] (toString m.maxMemory) []] ∧
      (sizeXML m).follow ["currentMemory"] =
        [.mk "currentMemory" [("unit", "KiB")] (toString m.config.memory) []] ∧
      (sizeXML m).follow ["vcpu"] = [.mk "vcpu" ([("placement", "static")] ++
        present (m.config.vcpus ≠ m.maxVcpus) [("current", toString m.config.vcpus)])
        (toString m.maxVcpus) []] := by
    refine ⟨?_, ?_, ?_⟩ <;> simp [sizeXML, Element.follow, Element.children, Element.name]
  refine ⟨_, parse_write (valid_sizeXML m), ?_⟩
  rw [legalText_sizeXML]
  refine ⟨numberAt_indented hfollow.1, ?_, numberAt_indented hfollow.2.1, ?_,
    numberAt_indented hfollow.2.2, ?_⟩
  · rw [lastAttr_indented, Element.lastAttr, Element.attrsAt, hfollow.1]
    rfl
  · rw [lastAttr_indented, Element.lastAttr, Element.attrsAt, hfollow.2.1]
    rfl
  · rw [lastAttr_indented, Element.lastAttr, Element.attrsAt, hfollow.2.2]
    by_cases hv : m.config.vcpus = m.maxVcpus
    · simp [hv, Element.attr, Element.attrs, present]
    · simp [hv, Element.attr, Element.attrs, present]

/-- A machine of four vCPUs and 4 GiB. -/
def fourVcpus : SizedMachine :=
  ⟨⟨4, 4194304, [], [], ["hd"], false⟩, 4, 4194304⟩

theorem takesEffect_fourVcpus :
    (∃ model, domainToModel "erp01" (sizeDocument
        (fourVcpus.update (.smooth .shutoff [] []) ⟨some 4, none, none, none⟩).2) = some model ∧
      TakesEffect ⟨some 4, none, none, none⟩ model) ↔
      (none : Option ℤ) = none ∧ some (4 : ℤ) = some 4 :=
  takesEffect_iff prints_sizeDocument (fun _ h => by cases h) (by decide) (by decide) rfl

/-- With two of them it is still reported with four. -/
theorem reported_fourVcpus :
    (fourVcpus.update (.smooth .shutoff [] []) ⟨some 2, none, none, none⟩).1 = .ok () ∧
      ∃ model, domainToModel "erp01" (sizeDocument
        (fourVcpus.update (.smooth .shutoff [] []) ⟨some 2, none, none, none⟩).2) = some model ∧
          model.vcpus = 4 ∧ ¬ TakesEffect ⟨some 2, none, none, none⟩ model := by
  obtain ⟨model, hmodel, hvcpus, -⟩ := domainToModel_of_prints (prints_sizeDocument
    (fourVcpus.update (.smooth .shutoff [] []) ⟨some 2, none, none, none⟩).2) "erp01"
  refine ⟨rfl, model, hmodel, hvcpus, fun heffect => ?_⟩
  have htwo := heffect.vcpus 2 rfl
  rw [hvcpus] at htwo
  exact absurd htwo (by decide)

end Ultrav
