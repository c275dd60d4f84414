import Pawnbook.Config
import Pawnbook.Offer.Index
import Pawnbook.Systems
import Pawnbook.Transaction.Basic

/-! # The book

The state of a contract: its configuration, the records of borrowers, listings and offers, the
block it stands at, the bank, the token registry and the collected fees it works with, and the
log of what was applied. The look-ups read the state; `Book.offer?` reads an offer in its
effective state, `Book.storedOffer?` as it is stored. -/

namespace Pawnbook

/-- The state of a contract and of the systems it works with. -/
structure Book where
  name : Value
  config : Config
  /-- A record of another kind that was written in the place of the configuration. -/
  misfit : Option Stored := none
  /-- The address that holds escrow and assets in custody. -/
  address : Key := .text "contract"
  height : Number := .whole 12345
  time : Time
  /-- Outcomes are printed. -/
  verbose : Bool := true
  /-- Balances may be set directly. -/
  testMode : Bool := false
  bank : Bank := {}
  registry : Registry := {}
  fees : FeeLedger := {}
  borrowers : Table Key Stored := .empty
  listings : Table Key Stored := .empty
  offers : OfferIndex := {}
  /-- The intents that were applied. -/
  seen : List Key := []
  /-- What was applied, in order. -/
  log : List Transaction := []
  nextSequence : Nat := 0

/-- What a call leaves behind: the book, the lines it printed, and the answer or the error. -/
structure Outcome (α : Type) where
  book : Book
  printed : List String := []
  answer : Except Error α

namespace Book

/-- The time of the first block when none is given: 2019-10-23, 02:23:39. -/
def defaultTime : Time := ⟨63707394219000000, by decide⟩

/-! ### Look-ups -/

def configRecord (b : Book) : Stored := b.misfit.getD (.config b.config)

def borrower? (b : Book) (name : Key) : Option Borrower :=
  (b.borrowers.get? name).bind Stored.borrower?

def listing? (b : Book) (key : ListingKey) : Option Listing :=
  (b.listings.get? key).bind Stored.listing?

/-- The keys of a borrower's listings in the order in which they were made, or of all listings if no
borrower is named. -/
def listingKeys (b : Book) : Option Key → Except Malformed (List Key)
  | none => .ok b.listings.keys
  | some borrower => b.listings.keys.filterM fun k => do return (← k.first) == borrower

/-- What is kept under a listing's key takes no offers. -/
def closes (b : Book) (key : ListingKey) : Bool := (b.listings.get? key).any (·.isClosed)

/-- An offer as it is stored. -/
def storedOffer? (b : Book) (id : Key) : Option Offer := b.offers.get? id

/-- An offer in its effective state. -/
def offer? (b : Book) (id : Key) : Option Offer :=
  (b.storedOffer? id).map fun o => o.readIf (b.closes o.listing)

/-- The latest transaction that carried out an intent. -/
def findTransaction? (b : Book) (intentId : Key) : Option Transaction :=
  b.log.reverse.find? (·.intentId == intentId)

/-- A logged transaction by its place, counted from the end below zero. -/
def logged? (b : Book) (place : Int) : Option Transaction :=
  let i := if place < 0 then place + b.log.length else place
  if i < 0 then none else b.log[i.toNat]?

/-! ### Look-ups of what must be there -/

/-- What must be there under the key of a listing. -/
def requireRecord (b : Book) (borrower id : Key) : Except Error Stored :=
  match b.listings.get? (.pair borrower id) with
  | some r => .ok r
  | none => .error (.loanNotFound borrower id)

/-- A listing that must be there for a step. The state of an offer in its place does not allow the
step. -/
def requireListing (b : Book) (step : Family) (key : ListingKey) : Except Error Listing := do
  match ← b.requireRecord key.borrower key.id with
  | .listing l => return l
  | .offer o => throw (.ofOfferState step o.state)
  | _ => throw (.loanNotFound key.borrower key.id)

/-- An offer that must be there, in its effective state. -/
def requireOffer (b : Book) (id : Key) : Except Error Offer :=
  match b.offer? id with
  | some o => .ok o
  | none => .error (.offerNotFound id)

/-- An offer that must be there, as it is stored. -/
def requireStoredOffer (b : Book) (id : Key) : Except Error Offer :=
  match b.storedOffer? id with
  | some o => .ok o
  | none => .error (.offerNotFound id)

/-- Id and offer under which a listing's loan runs or ran. -/
def activeLoan (b : Book) (l : Listing) : Except Error (Key × Offer) :=
  match l.activeOffer with
  | none => .error .noActiveOffer
  | some id => do return (id, ← b.requireOffer id)

/-- The active offer of a listing, if the sender made it. -/
def requireActiveLender (b : Book) (sender : Key) (l : Listing) : Except Error Offer := do
  let (_, o) ← b.activeLoan l
  if o.lender == sender then return o else throw (.notLender sender)

/-! ### Blocks and balances -/

def blockSeconds : Number := .whole 6

/-- The microseconds of some seconds. -/
def span : Number → Except Error Int
  | .floating .nan => .error (.malformed .notANumber)
  | .floating (.infinite _) => .error .unbounded
  | .floating (.finite s m q) => .ok (Time.microsOfBinary s m q)
  | .whole n => .ok (n * Time.microsPerSecond)
  | .truth b => .ok (Number.ofTruth b * Time.microsPerSecond)

/-- The time some seconds after another. -/
def timeAfter (t : Time) (seconds : Number) : Except Error Time := do
  (t.after (← span seconds)).mapError .time

/-- Moves the chain on by some blocks. The height is raised first, and stays raised if the time
cannot follow. -/
def advance (b : Book) (blocks secondsPerBlock : Number) : Outcome Unit :=
  if blocks.isNegative then { book := b, answer := .error (.malformed (.backwards blocks)) }
  else
    let raised := { b with height := b.height.add blocks }
    match timeAfter b.time (blocks.mul secondsPerBlock) with
    | .ok time => { book := { raised with time }, answer := .ok () }
    | .error e => { book := raised, answer := .error e }

/-- Sets a balance, which only a book in test mode allows. -/
def setBalance (b : Book) (address denom : Key) (amount : Number) : Except Error Book :=
  if b.testMode then do return { b with bank := ← b.bank.setBalance address denom amount }
  else .error .testModeOnly

/-- Enters a token outside the contract. -/
def mint (b : Book) (asset : Asset) (owner : Key) : Except Error Book := do
  return { b with registry := ← b.registry.mint asset owner }

/-! ## The records of a book by slot

`Book.record?` reads the record in a slot and `Book.write` carries out a change. Both see the
book as one store of records. -/

/-- Why a slot cannot be read. -/
inductive BadSlot where
  | configKey (key : Key)
  | unknownKind (name : Key)

def BadSlot.message : BadSlot → String
  | configKey key => "Unknown config key: " ++ key.display
  | unknownKind name => "Unknown record kind: " ++ name.display

def record? (b : Book) (s : Slot) : Except BadSlot (Option Stored) :=
  match s.kind with
  | .config =>
    if s.key == .text Slot.configKey then .ok (some b.configRecord) else .error (.configKey s.key)
  | .borrower => .ok (b.borrowers.get? s.key)
  | .listing => .ok (b.listings.get? s.key)
  | .offer => .ok ((b.storedOffer? s.key).map .offer)
  | .other name => .error (.unknownKind name)

/-- Stores a record as the configuration. -/
def writeConfig (b : Book) : Stored → Book
  | .config config => { b with config, misfit := none }
  | r => { b with misfit := some r }

/-- Stores an offer: as a new one, or in place of the one that is there. -/
def writeOffer (b : Book) (id : Key) (isNew : Bool) : Stored → Except Error Book
  | .offer o => do
    return { b with offers := ← if isNew then b.offers.insert id o else b.offers.update id o }
  | r => .error (.malformed (.notOffer r.toValue.kind))

/-- Carries a change out: an offer is inserted if the change has no old record and updated
otherwise. -/
def write (b : Book) (c : Change) : Except Error Book :=
  match c.slot.kind, c.new with
  | .config, some r => .ok (b.writeConfig r)
  | .borrower, some r => .ok { b with borrowers := b.borrowers.insert c.slot.key r }
  | .listing, some r => .ok { b with listings := b.listings.insert c.slot.key r }
  | .offer, some r => b.writeOffer c.slot.key c.old.isNone r
  | _, _ => .ok b

end Book
end Pawnbook
