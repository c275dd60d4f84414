import Pawnbook.Action.Draft
import Pawnbook.Coin
import Pawnbook.Config
import Pawnbook.Error

/-! # Configuring the contract

What a new contract is made of, and who may change it later. A contract's name has three to fifty
characters and its fee rate lies between zero, which is allowed, and one, which is not. -/

namespace Pawnbook
namespace Config

def minNameLength : Nat := 3

def maxNameLength : Nat := 50

/-- A name of an allowed length: a text is as long as its characters are many. -/
def checkName (name : Value) : Except Error Value :=
  if minNameLength ≤ name.length ∧ name.length ≤ maxNameLength then .ok name
  else .error (.nameLength name.length)

/-- The decimal that a value stands for, or that its text writes. -/
def readRate : Value → Except Error Decimal
  | .decimal d => .ok d
  | v => do
    let text ← v.written.mapError .calculation
    (Decimal.read text).mapError fun _ => .feeRateNoNumber v

/-- A fee rate from zero to below one. -/
def checkFeeRate (given : Value) : Except Error Decimal := do
  let rate ← readRate given
  if rate.isFinite ∧ !rate.isBelowZero ∧ !rate.isAtLeastOne then return rate
  else throw (.feeRateOutOfRange rate)

/-- The configuration of a new contract; its owner is the sender unless another is named. -/
def instantiate (e : Envelope) (name : Value) (feeDistributor : Key) (feeRate : Value)
    (owner : Key) : Except Error Config := do
  let name ← checkName name
  let owner : Key := if owner.value.isVoid then e.sender else owner
  let feeRate ← checkFeeRate feeRate
  return { name, ownership := { owner }, feeDistributor, feeRate }

def requireOwner (c : Config) (sender : String) : Except Error Unit :=
  if c.ownership.owner == sender then .ok () else .error (.notContractOwner sender)

end Config

/-! ## Configuring and owning the contract

Only the owner changes the configuration. Ownership moves in two steps: the owner proposes an
address, and that address claims the contract. -/
namespace Action

/-- A change of the configuration. -/
def draftConfig (b : Book) (sender : String) (config : Config) (attributes : Attributes) : Draft :=
  { sender, changes := [.config b.config config], attributes, kind := .admin }

def draftProposeOwner (b : Book) (sender : String) (owner : Option Key) :
    Except Error Draft := do
  b.config.requireOwner sender
  let config := { b.config with ownership := { b.config.ownership with proposed := owner } }
  return draftConfig b sender config [("proposed_owner", .ofOption Key.value owner)]

/-- Makes the proposed owner the owner. -/
def draftClaimOwnership (b : Book) (sender : String) : Except Error Draft :=
  if b.config.ownership.proposed.any (· == (sender : Key)) then
    let config := { b.config with ownership := { owner := sender } }
    .ok (draftConfig b sender config [("new_owner", .text sender)])
  else .error (.notProposedOwner sender)

/-- Sets where fees go. -/
def draftFeeDistributor (b : Book) (sender : String) (address : Key) : Except Error Draft := do
  b.config.requireOwner sender
  let config := { b.config with feeDistributor := address }
  return draftConfig b sender config [("fee_distributor", address.value)]

/-- Sets which share of the interest the fees are. -/
def draftFeeRate (b : Book) (sender : String) (rate : Value) : Except Error Draft := do
  b.config.requireOwner sender
  let feeRate ← Config.checkFeeRate rate
  return draftConfig b sender { b.config with feeRate } [("fee_rate", .decimal feeRate)]

end Action
end Pawnbook
