import Pawnbook.Book.Basic
import Pawnbook.Offer.Escrow

/-! # Auditing the escrow

The contract must hold exactly the deposits of its offers. The audit compares the two for every
denomination that either of them knows and lists those that differ. -/

namespace Pawnbook

/-- A denomination in which the contract does not hold what was deposited. -/
structure Discrepancy where
  denom : Key
  escrowed : Nat
  held : Number
deriving DecidableEq

/-- What the contract holds beyond the deposits, below zero if it lacks something. -/
def Discrepancy.difference (d : Discrepancy) : Number := d.held.sub (.whole d.escrowed)

def Discrepancy.toValue (d : Discrepancy) : Value :=
  .ofEntries
    [("denom", d.denom.value), ("escrowed", .int d.escrowed), ("held", d.held),
     ("difference", d.difference)]

/-- Deposits, holdings, and where they differ. -/
structure EscrowAudit where
  escrowed : Table Key Nat
  held : List (Key × Number)
  discrepancies : List Discrepancy
deriving DecidableEq

namespace EscrowAudit

/-- No denomination differs. -/
def isValid (a : EscrowAudit) : Bool := a.discrepancies.isEmpty

/-- The holdings as a map. -/
def heldValue (a : EscrowAudit) : Value := .map (a.held.map fun (d, n) => (d.value, .ofNumber n))

def toValue (a : EscrowAudit) : Value :=
  .ofEntries
    [("valid", .bool a.isValid),
     ("escrowed", .map (a.escrowed.entries.map fun (d, n) => (d.value, .int n))),
     ("held", a.heldValue), ("discrepancies", .tuple (a.discrepancies.map Discrepancy.toValue))]

end EscrowAudit

namespace Book

/-- The stored offers in order of insertion. -/
def storedOffers (b : Book) : List Offer := b.offers.offers.values

/-- The deposits of all offers by denomination. -/
def escrowed (b : Book) : Table Key Nat := Offer.escrowTotals b.storedOffers

/-- Compares the deposits with what the contract holds. -/
def auditEscrow (b : Book) : EscrowAudit :=
  let escrowed := b.escrowed
  let held := b.bank.holdings b.address
  let denoms := (escrowed.keys ++ held.map (·.1)).eraseDups
  let compare (denom : Key) : Option Discrepancy :=
    let e := (escrowed.get? denom).getD 0
    let h := b.bank.balance b.address denom
    if h.same (.whole e) then none else some ⟨denom, e, h⟩
  { escrowed, held,
    discrepancies := (Value.sorted Key.value denoms).filterMap compare }

end Book
end Pawnbook
