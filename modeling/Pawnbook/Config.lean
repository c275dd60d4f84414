import Pawnbook.Record.Key

/-! # The contract's configuration

Who owns the contract, who is proposed as its next owner, where fees go and which share of the
interest they are, and the id of the latest offer. Two configurations agree (`Config.agrees`)
when their parts are equal as values. Whether they do cannot be said if one of the rates forbids
comparisons. -/

namespace Pawnbook

/-- The owner of the contract and the address that may claim it. -/
structure Ownership where
  owner : Key
  proposed : Option Key := none
deriving DecidableEq

namespace Ownership

def toValue (o : Ownership) : Value :=
  .record "OwnerStruct"
    [("owner", o.owner.value), ("new_owner", .ofOption Key.value o.proposed)] none

/-- The same ownership, the addresses being compared as keys. -/
def agrees (o p : Ownership) : Bool :=
  o.owner == p.owner && Value.optionsAgree (· == ·) o.proposed p.proposed

end Ownership

/-- The configuration of the contract. -/
structure Config where
  name : Value
  ownership : Ownership
  feeDistributor : Key
  /-- The share of the interest that goes to the fee distributor. -/
  feeRate : Decimal
  /-- The id of the latest offer on any listing. -/
  lastOffer : Value := .int 0
deriving DecidableEq

namespace Config

def toValue (c : Config) : Value :=
  .record "ContractInfo"
    [("name", c.name), ("owner", c.ownership.toValue), ("fee_distributor", c.feeDistributor.value),
     ("fee_rate", .decimal c.feeRate), ("global_offer_index", c.lastOffer)] none

/-- The same configuration, its parts being compared as values. The rates are compared only if
name, owner and fee distributor are equal. -/
def agrees (c d : Config) : Except Decimal.Failure Bool :=
  if c.name.same d.name && c.ownership.agrees d.ownership &&
      c.feeDistributor == d.feeDistributor then do
    return (← c.feeRate.agrees d.feeRate) && c.lastOffer.same d.lastOffer
  else .ok false

end Config
end Pawnbook
