import Pocx.Hashlib.Scoop

set_option autoImplicit false

namespace Pocx.CpuHasher

open ByteStore
open PlotFile (scoopSize numScoops nonceSize)
open Hashlib

variable {Payload Seed : Type}

/-- `CPU_TASK_SIZE` -/
def cpuTaskSize : Nat := 64

/-- The tasks that `hash_nonces_cpu` spawns from `offset` on: the offset and the size of
each chunk. -/
def hashTasks (numNonces offset : Nat) : List (Nat × Nat) :=
  if offset < numNonces then
    let chunkSize := min cpuTaskSize (numNonces - offset)
    (offset, chunkSize) :: hashTasks numNonces (offset + chunkSize)
  else []
termination_by numNonces - offset
decreasing_by
  simp only [cpuTaskSize]
  omega

/-- `hash_nonces_cpu`, with the tasks run in the order given; `none` where a task panics. -/
def hashNoncesCpu (generateNonces : GenerateNonces Payload Seed) (scatterBuf : Bytes)
    (addressPayload : Payload) (seed : Seed) (startNonce : Nat) (order : List (Nat × Nat)) :
    Option Bytes :=
  order.foldlM
    (fun buf chunk =>
      (generateNonces buf chunk.1 addressPayload seed (startNonce + chunk.1) chunk.2).toOption)
    scatterBuf

theorem hashTasks_fit (numNonces offset : Nat) (chunk : Nat × Nat)
    (spawned : chunk ∈ hashTasks numNonces offset) : chunk.1 + chunk.2 ≤ numNonces := by
  induction offset using hashTasks.induct numNonces with
  | case1 offset inside chunkSize ih =>
    rw [hashTasks, if_pos inside] at spawned
    rcases List.mem_cons.mp spawned with rfl | later
    · simp only
      omega
    · exact ih later
  | case2 offset outside =>
    rw [hashTasks, if_neg outside] at spawned
    cases spawned

/-- Every nonce belongs to a chunk. -/
theorem hashTasks_cover (numNonces offset k : Nat) (lower : offset ≤ k) (upper : k < numNonces) :
    ∃ chunk ∈ hashTasks numNonces offset, chunk.1 ≤ k ∧ k < chunk.1 + chunk.2 := by
  induction offset using hashTasks.induct numNonces with
  | case1 offset inside chunkSize ih =>
    rw [hashTasks, if_pos inside]
    by_cases now : k < offset + chunkSize
    · exact ⟨_, List.mem_cons_self, lower, now⟩
    · obtain ⟨chunk, spawned, covers⟩ := ih (by omega)
      exact ⟨chunk, List.mem_cons_of_mem _ spawned, covers⟩
  | case2 offset outside => omega

/-- A column holds its nonce as soon as one of the tasks run has covered it: every task
writes the same value there. -/
theorem hashNoncesCpu_covered (generator : NonceGenerator Payload Seed) (addressPayload : Payload)
    (seed : Seed) (startNonce columns : Nat) (order : List (Nat × Nat)) (scatterBuf : Bytes)
    (sized : scatterBuf.len / nonceSize = columns)
    (fit : ∀ chunk ∈ order, chunk.1 + chunk.2 ≤ columns) :
    ∃ after, hashNoncesCpu generator.generateNonces scatterBuf addressPayload seed startNonce order =
        some after ∧
      after.len = scatterBuf.len ∧
      ∀ scoop k, scoop < numScoops → k < columns →
        (∃ chunk ∈ order, chunk.1 ≤ k ∧ k < chunk.1 + chunk.2) ∨
          scoopAt scatterBuf (scoopAddress columns scoop k) =
            generator.raw addressPayload seed (startNonce + k) scoop →
        scoopAt after (scoopAddress columns scoop k) =
          generator.raw addressPayload seed (startNonce + k) scoop := by
  induction order generalizing scatterBuf with
  | nil =>
    refine ⟨scatterBuf, rfl, rfl, ?_⟩
    intro scoop k _ _ covered
    rcases covered with ⟨_, listed, _⟩ | done
    · cases listed
    · exact done
  | cons chunk order ih =>
    subst sized
    have chunkFit := fit chunk List.mem_cons_self
    obtain ⟨buf, generated, placed⟩ := generator.places scatterBuf chunk.1 addressPayload seed
      (startNonce + chunk.1) chunk.2 chunkFit
    obtain ⟨after, done, len, columns⟩ := ih buf (by rw [placed.len])
      (fun later listed => fit later (List.mem_cons_of_mem _ listed))
    refine ⟨after, ?_, len.trans placed.len, ?_⟩
    · rw [hashNoncesCpu, List.foldlM_cons, generated]
      exact done
    · intro scoop k scoopLt kLt covered
      apply columns scoop k scoopLt kLt
      by_cases here : chunk.1 ≤ k ∧ k < chunk.1 + chunk.2
      · obtain ⟨j, rfl⟩ := Nat.exists_eq_add_of_le here.1
        right
        rw [← Nat.add_assoc]
        exact placed.inside scoop j scoopLt (by omega)
      · have kept := placed.outside scoop k scoopLt kLt (by omega)
        rcases covered with ⟨earlier, listed, covers⟩ | done
        · rcases List.mem_cons.mp listed with rfl | later
          · exact absurd covers here
          · exact Or.inl ⟨earlier, later, covers⟩
        · exact Or.inr (kept.trans done)

/-- Whatever order the pool runs the tasks in, none panics and column `k` ends up with
nonce `startNonce + k`. -/
theorem hashNoncesCpu_spec (generator : NonceGenerator Payload Seed) (addressPayload : Payload)
    (seed : Seed) (startNonce columns : Nat) (order : List (Nat × Nat)) (scatterBuf : Bytes)
    (sized : scatterBuf.len / nonceSize = columns) (spawned : order.Perm (hashTasks columns 0)) :
    ∃ after, hashNoncesCpu generator.generateNonces scatterBuf addressPayload seed startNonce order =
        some after ∧
      after.len = scatterBuf.len ∧
      ∀ scoop k, scoop < numScoops → k < columns →
        scoopAt after (scoopAddress columns scoop k) =
          generator.raw addressPayload seed (startNonce + k) scoop := by
  have fit : ∀ chunk ∈ order, chunk.1 + chunk.2 ≤ columns :=
    fun chunk listed => hashTasks_fit columns 0 chunk (spawned.mem_iff.mp listed)
  obtain ⟨after, done, len, covered⟩ := hashNoncesCpu_covered generator addressPayload seed
    startNonce columns order scatterBuf sized fit
  refine ⟨after, done, len, ?_⟩
  intro scoop k scoopLt kLt
  obtain ⟨chunk, listed, covers⟩ := hashTasks_cover columns 0 k (Nat.zero_le _) kLt
  exact covered scoop k scoopLt kLt (Or.inl ⟨chunk, spawned.mem_iff.mpr listed, covers⟩)

end Pocx.CpuHasher
