import ContractHost.Proofs.Chain.Meters
import ContractHost.Proofs.Small

/-!
# The Contract Table

Contracts come into the table in two ways. Somebody registers one under an address of their choice,
or a contract is created and gets the address of the next number. Both write the entry of one
address, whatever was there, and leave all others alone. The table has no notion of an entry that
must not be replaced.

Created contracts never get into each other's way, because no two numbers have the same address as
long as the numbers have not gone once around all words. With registered contracts it is different.
An address that looks like that of a number can be registered before its number is due, and then
the contract that is created under the number takes the place of the registered one.

`Chain.Enrolled` keeps the addresses of the one kind and the count of the other, and
`Chain.Enrolled.contains_iff` says that these are exactly what is in the table. So whether the next
contract replaces another one can be told from the registered addresses alone.

## Main definitions

* `Numeral.value`: The number of a row of hexadecimal digits.
* `Chain.Enrolled`: How a contract table has come about.

## Theorems

* `Numeral.padded_injective`, `Address.numbered_injective`: Different numbers, different addresses.
* `Chain.createContract_cases`: A creation.
* `Chain.Enrolled.contains_iff`: What is in the table.
* `Chain.Enrolled.fresh_iff`: Whether the address of the next number is free.
* `Capabilities.creation_enters`: What a creation enters, and what it replaces.
-/

namespace ContractHost

/-! ## Addresses of numbers -/

namespace Numeral

/-- The number of a hexadecimal digit. -/
def digitValue (c : Char) : Nat := if c.toNat < 58 then c.toNat - 48 else c.toNat - 87

/-- The number of a row of hexadecimal digits. -/
def value (ds : List Char) : Nat := ds.foldl (fun n c => n * 16 + digitValue c) 0

theorem digitValue_digitChar {d : Nat} (h : d < 16) : digitValue (Nat.digitChar d) = d := by
  revert d
  decide

theorem value_concat (ds : List Char) (c : Char) :
    value (ds ++ [c]) = value ds * 16 + digitValue c := by
  unfold value
  rw [List.foldl_append]
  rfl

theorem value_toDigits (n : Nat) : value (Nat.toDigits 16 n) = n := by
  induction n using Nat.strongRecOn with
  | _ n ih =>
    by_cases hdigit : n < 16
    · rw [Nat.toDigits_of_lt_base hdigit]
      change 0 * 16 + digitValue (Nat.digitChar n) = n
      rw [digitValue_digitChar hdigit, Nat.zero_mul, Nat.zero_add]
    · -- The last digit is the remainder, and the ones before it are those of the quotient.
      rw [Nat.toDigits_of_base_le (by decide) (Nat.le_of_not_lt hdigit), value_concat,
        ih (n / 16) (by omega), digitValue_digitChar (Nat.mod_lt n (by decide))]
      omega

/-- Zeros in front do not matter. -/
theorem value_zeros (k : Nat) (ds : List Char) :
    value (List.replicate k '0' ++ ds) = value ds := by
  induction k with
  | zero => rfl
  | succ k ih => exact ih

/-- Different numbers are written differently, whatever the width. -/
theorem padded_injective (width : Nat) : Function.Injective (padded width) := by
  intro m n h
  have hvalue : ∀ n, value (padded width n).toList = n := by
    intro n
    rw [padded, String.toList_ofList, value_zeros, value_toDigits]
  rw [← hvalue m, h, hvalue n]

end Numeral

/-- Different numbers have different addresses. -/
theorem Address.numbered_injective : Function.Injective Address.numbered := by
  intro m n h
  have hdigits := congrArg String.toList h
  rw [numbered, numbered, String.toList_append, String.toList_append] at hdigits
  have hpadded := String.toList_inj.mp (List.append_cancel_left hdigits)
  exact UInt64.toNat_inj.mp (Numeral.padded_injective 16 hpadded)

/-! ## What is in the table -/

namespace Chain

/-- A creation is out of gas and enters nothing, or it enters the code under the address of the
    next number. -/
theorem createContract_cases {meter : MeterId} {request : CreateRequest} {c c' : Chain}
    {r : Except Panic (Except HostError String)} (h : createContract meter request c = (r, c')) :
    (∃ e, r = .ok (.error e) ∧ e.code = .outOfGas ∧ c'.contracts = c.contracts ∧
        c'.created = c.created) ∨
      r = .ok (.ok (Address.numbered (c.created + 1))) ∧ c'.created = c.created + 1 ∧
        c'.contracts = c.contracts.set (Address.numbered (c.created + 1))
          (Checksum.ofCode request.code).bytes := by
  unfold createContract at h
  rw [Attempt.bind_apply, charge_apply, Meter.charge_eq] at h
  by_cases hover : ((c.meter meter).charged createCost).isOver = true
  · rw [if_pos hover] at h
    cases h
    exact .inl ⟨_, rfl, rfl, rfl, rfl⟩
  · rw [if_neg hover] at h
    cases h
    exact .inr ⟨rfl, rfl, rfl⟩

/-- How a contract table has come about: contracts have been registered under the addresses in
    `names`, and `n` have been created. Whatever else has happened has left the table alone, and a
    creation that was refused is part of that. -/
inductive Enrolled : (names : List String) → (n : Nat) → Chain → Prop
  | start {c} : c.contracts = .empty → c.created = 0 → Enrolled [] 0 c
  | register {names n c} (address : String) (code : Bytes) : Enrolled names n c →
      Enrolled (address :: names) n (c.registerContract address code)
  | create {names n c c' address} (meter : MeterId) (request : CreateRequest) :
      Enrolled names n c → createContract meter request c = (.ok (.ok address), c') →
      Enrolled names (n + 1) c'
  | refuse {names n c c' e} (meter : MeterId) (request : CreateRequest) :
      Enrolled names n c → createContract meter request c = (.ok (.error e), c') →
      Enrolled names n c'
  | elsewhere {names n c c'} : Enrolled names n c → c'.contracts = c.contracts →
      c'.created = c.created → Enrolled names n c'

namespace Enrolled

variable {names : List String} {n : Nat} {c : Chain}

/-- The counter is the word of the number of creations. -/
theorem created_eq (h : Enrolled names n c) : c.created = UInt64.ofNat n := by
  induction h with
  | start _ hcreated => exact hcreated
  | register address code _ ih => exact ih
  | create meter request _ hcreate ih =>
      rcases createContract_cases hcreate with ⟨e, he, -⟩ | ⟨-, hcreated, -⟩
      · cases he
      · rw [hcreated, ih, UInt64.ofNat_add]
        rfl
  | refuse meter request _ hcreate ih =>
      rcases createContract_cases hcreate with ⟨-, -, -, -, hcreated⟩ | ⟨hr, -⟩
      · rw [hcreated, ih]
      · cases hr
  | elsewhere _ _ hcreated ih => rw [hcreated, ih]

/-- The word of the next number. -/
theorem next_eq (h : Enrolled names n c) : c.created + 1 = UInt64.ofNat (n + 1) := by
  rw [h.created_eq, UInt64.ofNat_add]
  rfl

/-- The addresses in the table are those under which contracts have been registered, and those of
    the numbers of creation so far. -/
theorem contains_iff (h : Enrolled names n c) (address : String) :
    c.contracts.contains address = true ↔
      address ∈ names ∨ ∃ k < n, address = Address.numbered (UInt64.ofNat (k + 1)) := by
  -- The induction is on how the table has come about. A creation that is refused and everything
  -- elsewhere leave it alone.
  induction h with
  | start hcontracts _ =>
      rw [hcontracts]
      simp only [List.not_mem_nil, Nat.not_lt_zero, false_and, exists_false, or_self, iff_false]
      exact Bool.false_ne_true
  | register named code _ ih =>
      change (Table.set _ named code).contains address = true ↔ _
      rw [Table.contains_set, ih, List.mem_cons, or_assoc]
  | @create names n c c' created meter request hc hcreate ih =>
      rcases createContract_cases hcreate with ⟨e, he, -⟩ | ⟨-, -, hcontracts⟩
      · cases he
      · -- The new address is that of the number behind all others.
        rw [hcontracts, Table.contains_set, ih, hc.next_eq]
        simp only [Nat.lt_succ_iff_lt_or_eq, or_and_right, exists_or, exists_eq_left]
        exact or_comm.trans or_assoc
  | refuse meter request _ hcreate ih =>
      rcases createContract_cases hcreate with ⟨-, -, -, hcontracts, -⟩ | ⟨hr, -⟩
      · rw [hcontracts, ih]
      · cases hr
  | elsewhere _ hcontracts _ ih => rw [hcontracts, ih]

/-- The address of the next number is free unless a contract has been registered under it, as long
    as the numbers have not gone once around all words. -/
theorem fresh_iff (h : Enrolled names n c) (hroom : n < UInt64.size) :
    c.contracts.get? (Address.numbered (c.created + 1)) = none ↔
      Address.numbered (c.created + 1) ∉ names := by
  have hnew : ¬ ∃ k < n, Address.numbered (c.created + 1) =
      Address.numbered (UInt64.ofNat (k + 1)) := by
    rintro ⟨k, hk, heq⟩
    -- Numbers with one address are one word, and numbers below the size of a word that are one word
    -- are one number.
    have hwords := congrArg UInt64.toNat (h.next_eq.symm.trans (Address.numbered_injective heq))
    rw [UInt64.toNat_ofNat', UInt64.toNat_ofNat'] at hwords
    rw [UInt64.size] at hroom
    omega
  rw [← Table.contains_eq_false_iff, ← Bool.not_eq_true, h.contains_iff, or_iff_left hnew]

end Enrolled

/-- A table in which a contract has been registered under the address of the first number. -/
def named : Chain :=
  Chain.empty.registerContract "addr0000000000000001" (List.replicate Checksum.size 1)

theorem enrolled_named : named.Enrolled ["addr0000000000000001"] 0 :=
  .register _ _ (.start rfl rfl)

end Chain

/-- A request to create a contract of some code. -/
def CreateRequest.small : CreateRequest := ⟨"a", [0, 97, 115, 109], [], none, "", false, none⟩

namespace Capabilities

/-- A creation that does not run out of gas enters the checksum of the code under the address of
    the next number and leaves all other entries alone. In the first `2 ^ 64` creations the address
    was free, and then there is one more contract than before, unless a contract had been
    registered under that very address, and then it is replaced. A creation that runs out of gas
    leaves the table and the count of creations alone. -/
theorem creation_enters {names : List String} {n : Nat} {c : Chain} (h : c.Enrolled names n)
    (querier : Querier) (ctx : Context) (request : CreateRequest) (gasLimit : UInt64) :
    (∃ address c', (inMemory querier).createContract ctx request gasLimit c =
        (.ok (.ok address), c') ∧
      address = Address.numbered (UInt64.ofNat (n + 1)) ∧
      (n < UInt64.size → (c.contracts.get? address = none ↔ address ∉ names)) ∧
      (∀ other, other ≠ address → c'.contracts.get? other = c.contracts.get? other) ∧
      c'.contracts.get? address = some (Checksum.ofCode request.code).bytes ∧
      c'.contracts.size = c.contracts.size + if c.contracts.contains address then 0 else 1) ∨
    ∃ e c', (inMemory querier).createContract ctx request gasLimit c = (.ok (.error e), c') ∧
      e.code = .outOfGas ∧ c'.contracts = c.contracts ∧ c'.created = c.created := by
  change (∃ address c', Chain.createContract ctx.binding.meter request c = _ ∧ _) ∨
    ∃ e c', Chain.createContract ctx.binding.meter request c = _ ∧ _
  rcases hcreate : Chain.createContract ctx.binding.meter request c with ⟨r, c'⟩
  rcases Chain.createContract_cases hcreate with
    ⟨e, rfl, hcode, hcontracts, hcreated⟩ | ⟨rfl, -, hcontracts⟩
  · exact .inr ⟨e, c', rfl, hcode, hcontracts, hcreated⟩
  · refine .inl ⟨_, c', rfl, congrArg _ h.next_eq, h.fresh_iff, ?_, ?_, ?_⟩
    · intro other hother
      rw [hcontracts, Table.get?_set_of_ne _ _ hother]
    · rw [hcontracts, Table.get?_set_self]
    · rw [hcontracts, Table.size_set]

/-- The first creation replaces the contract that was registered under its address. -/
theorem creation_enters_of_named :
    Chain.named.Enrolled ["addr0000000000000001"] 0 ∧
      ∃ c', (inMemory (.answering 1)).createContract .small .small 0 Chain.named =
          (.ok (.ok "addr0000000000000001"), c') ∧
        Chain.named.contracts.get? "addr0000000000000001" = some (List.replicate 32 1) ∧
        c'.contracts.get? "addr0000000000000001" =
          some (Checksum.ofCode CreateRequest.small.code).bytes ∧
        c'.contracts.size = 1 := by
  refine ⟨Chain.enrolled_named, ?_⟩
  have hfirst : Address.numbered (UInt64.ofNat (0 + 1)) = "addr0000000000000001" := by
    decide +kernel
  rcases creation_enters Chain.enrolled_named (.answering 1) .small .small 0 with
    ⟨address, c', hcreate, rfl, -, -, hentry, hsize⟩ | ⟨e, c', hcreate, -⟩
  · rw [hfirst] at hcreate hentry hsize
    exact ⟨c', hcreate, by decide +kernel, hentry, hsize.trans (by decide +kernel)⟩
  · cases hcreate

/-- What a creation enters may have been in the table before. -/
theorem creation_replaces :
    ¬ ∀ (names : List String) (n : Nat) (c c' : Chain) (querier : Querier) (ctx : Context)
        (request : CreateRequest) (gasLimit : UInt64) (address : String), c.Enrolled names n →
      (inMemory querier).createContract ctx request gasLimit c = (.ok (.ok address), c') →
      c.contracts.get? address = none ∧ c'.contracts.size = c.contracts.size + 1 := by
  intro h
  have hfresh := (h _ _ _ _ (.answering 1) .small .small 0 _ Chain.enrolled_named rfl).1
  have htaken : (Chain.named.contracts.get? (Address.numbered 1)).isSome = true := by
    decide +kernel
  exact absurd hfresh (Option.isSome_iff_ne_none.mp htaken)

end Capabilities

end ContractHost
