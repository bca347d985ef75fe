import PqcUtils.Dump.Ssh.Hosts
import PqcUtils.Dump.Ssh.Negotiation

/-!
# Advertised algorithms

The capabilities of a host are the names in the first messages of all directions
it sent in. A later message of a direction adds nothing, whatever it lists.
-/

namespace PqcUtils.Dump

open Net

def SshStore.Supports (store : SshStore) (host alg : String) : Prop :=
  ∃ caps, store.hostCaps.lookup host = some caps ∧ alg ∈ caps.supportedKex

/-- A host supports what its first messages list. -/
theorem supports_iff {inputs : List SshInput} {store : SshStore}
    (result : runSsh inputs = some store) {host alg : String} :
    store.Supports host alg ↔ ∃ a b kex, a.1.display = host ∧
      firstMessage inputs a b = some kex ∧ alg ∈ kex.kexAlgorithms := by
  have remembers := remembers_of_run result
  have capable := remembers.consistent.capable
  have offered : store.Supports host alg ↔
      ∃ kex, Offer store.sessions host kex ∧ alg ∈ kex.kexAlgorithms := by
    constructor
    · rintro ⟨caps, found, listed⟩
      have names := Set.ext_iff.mp (capable.names host caps found) alg
      exact names.mp listed
    · rintro ⟨kex, offer, listed⟩
      obtain ⟨caps, found⟩ := Finmap.mem_iff.mp ((capable.hosts host).mpr ⟨kex, offer⟩)
      have names := Set.ext_iff.mp (capable.names host caps found) alg
      exact ⟨caps, found, names.mpr ⟨kex, offer, listed⟩⟩
  rw [offered]
  simp only [remembers.offer_iff]
  constructor
  · rintro ⟨kex, ⟨a, b, host, first⟩, listed⟩
    exact ⟨a, b, kex, host, first, listed⟩
  · rintro ⟨a, b, kex, host, first, listed⟩
    exact ⟨kex, ⟨a, b, host, first⟩, listed⟩

def AllAdvertised (inputs : List SshInput) (store : SshStore) : Prop :=
  ∀ input ∈ inputs, ∀ source destination kex, Accepted input source destination kex →
    ∀ alg ∈ kex.kexAlgorithms, store.Supports source.1.display alg

/-- No message lists a name that no first message from the same address lists. -/
def FirstMessagesSuffice (inputs : List SshInput) : Prop :=
  ∀ input ∈ inputs, ∀ source destination kex, Accepted input source destination kex →
    ∀ alg ∈ kex.kexAlgorithms, ∃ a b first, a.1 = source.1 ∧
      firstMessage inputs a b = some first ∧ alg ∈ first.kexAlgorithms

/-- In every run the capabilities are complete exactly if later messages list nothing new. -/
theorem allAdvertised_iff (inputs : List SshInput) :
    ∃ store, runSsh inputs = some store ∧
      (AllAdvertised inputs store ↔ FirstMessagesSuffice inputs) := by
  obtain ⟨store, result⟩ := exists_runSsh inputs
  refine ⟨store, result, ?_⟩
  simp only [AllAdvertised, FirstMessagesSuffice, supports_iff result,
    display_injective.eq_iff]

/-- A later connection between the same ports that offers `b` instead of `a`. -/
theorem advertised_name_lost :
    ∃ store, runSsh [messageBetween 50000 22 [97], messageBetween 50000 22 [98]] = some store ∧
      Accepted (messageBetween 50000 22 [98]) (localhost 50000) (localhost 22) ⟨["b"]⟩ ∧
      ¬store.Supports (localhost 50000).1.display "b" ∧
      ¬AllAdvertised [messageBetween 50000 22 [97], messageBetween 50000 22 [98]] store := by
  have accepted : Accepted (messageBetween 50000 22 [97]) (localhost 50000) (localhost 22)
      ⟨["a"]⟩ := ⟨by decide +kernel, rfl⟩
  have acceptedLater : Accepted (messageBetween 50000 22 [98]) (localhost 50000) (localhost 22)
      ⟨["b"]⟩ := ⟨by decide +kernel, rfl⟩
  obtain ⟨store, result⟩ :=
    exists_runSsh [messageBetween 50000 22 [97], messageBetween 50000 22 [98]]
  have lost : ¬store.Supports (localhost 50000).1.display "b" := by
    rw [supports_iff result]
    rintro ⟨a, b, kex, -, first, listed⟩
    rw [firstMessage, List.findSome?_cons] at first
    by_cases direction : a = localhost 50000 ∧ b = localhost 22
    · obtain ⟨rfl, rfl⟩ := direction
      rw [messageAlong_of_accepted accepted] at first
      cases first
      simp at listed
    · have later : firstMessage ([] ++ [messageBetween 50000 22 [98]]) a b = firstMessage [] a b :=
        firstMessage_append_of_other acceptedLater direction
      rw [messageAlong_of_other accepted direction] at first
      exact absurd (later.symm.trans first) (by simp [firstMessage])
  refine ⟨store, result, acceptedLater, lost, fun all => lost ?_⟩
  exact all _ (by simp) _ _ _ acceptedLater "b" (by simp)

end PqcUtils.Dump
