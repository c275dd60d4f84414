import Pawnbook.Error
import Pawnbook.Table
import Pawnbook.Transfer

/-! # The systems around a contract

The bank, the registry of tokens and the fee distributor. They know nothing of the contract, and
refuse what their own rules forbid.

## The bank

Balances per address and denomination. No transfer overdraws its sender: `Bank.send` refuses it
instead. An address has an account as soon as an amount was set for it or sent to it, be it
zero. -/

namespace Pawnbook

/-- Balances per address and denomination. -/
structure Bank where
  accounts : Table Key (Table Key Number) := .empty

namespace Bank

def account (b : Bank) (address : Key) : Table Key Number :=
  (b.accounts.get? address).getD .empty

def balance (b : Bank) (address denom : Key) : Number :=
  ((b.account address).get? denom).getD (.whole 0)

/-- Writes a balance. -/
def write (b : Bank) (address denom : Key) (amount : Number) : Bank :=
  ⟨b.accounts.insert address ((b.account address).insert denom amount)⟩

/-- Sets a balance, which must not be negative. -/
def setBalance (b : Bank) (address denom : Key) (amount : Number) : Except Error Bank :=
  if amount.isNegative then .error (.malformed (.negativeBalance amount))
  else .ok (b.write address denom amount)

/-- Moves a coin that the sender has. -/
def move (b : Bank) (sender recipient : Key) (coin : Coin) : Bank :=
  let debited := b.write sender coin.denom ((b.balance sender coin.denom).sub coin.worth)
  debited.write recipient coin.denom ((debited.balance recipient coin.denom).add coin.worth)

/-- Moves a coin, unless that would overdraw the sender. -/
def send (b : Bank) (sender recipient : Key) (coin : Coin) : Except Error Bank :=
  if (b.balance sender coin.denom).isBelow coin.worth then
    .error (.overdrawn sender (b.balance sender coin.denom) coin)
  else .ok (b.move sender recipient coin)

/-- The sum of all balances in a denomination. -/
def totalSupply (b : Bank) (denom : Key) : Number :=
  b.accounts.values.foldl (fun sum a => sum.add ((a.get? denom).getD (.whole 0))) (.whole 0)

/-- The addresses that have an account, in the order in which they got it. -/
def addresses (b : Bank) : List Key := b.accounts.keys

/-- The balances of an address that are not zero, in the order in which they came in. -/
def holdings (b : Bank) (address : Key) : List (Key × Number) :=
  (b.account address).entries.filter fun e => !e.2.isZero

/-- The holdings of all addresses that have any. -/
def allHoldings (b : Bank) : List (Key × List (Key × Number)) :=
  (b.addresses.map fun a => (a, b.holdings a)).filter fun e => !e.2.isEmpty

/-! ### Balances after a write -/

theorem account_write (b : Bank) (a d : Key) (n : Number) (a' : Key) :
    (b.write a d n).account a' = if a == a' then (b.account a).insert d n else b.account a' := by
  unfold account write
  rw [Table.get?_insert]
  split <;> rfl

theorem account_congr (b : Bank) {a a' : Key} (h : (a == a') = true) :
    b.account a = b.account a' := by
  unfold account
  rw [Table.get?_congr _ h]

theorem balance_write (b : Bank) (a d : Key) (n : Number) (a' d' : Key) :
    (b.write a d n).balance a' d' = if a == a' && d == d' then n else b.balance a' d' := by
  unfold balance
  rw [account_write]
  by_cases h : a == a'
  · rw [if_pos h, account_congr b h]
    by_cases h' : d == d' <;> simp [Table.get?_insert, h, h']
  · simp [h]

end Bank

/-! ## The registry of tokens

Who owns which token. A token is transferred by its owner only. -/

/-- The owners of tokens. -/
structure Registry where
  owners : Table Token Key := .empty

namespace Registry

def owner? (r : Registry) (t : Token) : Option Key := r.owners.get? t

/-- Who holds a token: its owner, or nobody. -/
def holder (r : Registry) (t : Token) : Key := (r.owner? t).getD .nothing

/-- Writes the owner of a token. -/
def assign (r : Registry) (t : Token) (owner : Key) : Registry := ⟨r.owners.insert t owner⟩

/-- Enters a token with its owner; only non-fungible tokens can be entered. -/
def mint (r : Registry) (asset : Asset) (owner : Key) : Except Error Registry :=
  match asset.nft? with
  | some n => .ok (r.assign n.token owner)
  | none => .error (.malformed (.notMintable asset.toValue))

/-- Transfers a token that the sender holds. -/
def transfer (r : Registry) (t : Token) (sender recipient : Key) : Except Error Registry :=
  if r.holder t == sender then .ok (r.assign t recipient)
  else .error (.notHolder sender t (r.holder t))

/-- The tokens of an owner in order. -/
def tokensOf (r : Registry) (owner : Key) : List Token :=
  Value.sorted (·.toKey.value) ((r.owners.entries.filter (·.2 == owner)).map (·.1))

/-- All tokens with their owners, in the order of the tokens. -/
def sorted (r : Registry) : List (Token × Key) := Value.sorted (·.1.toKey.value) r.owners.entries

theorem owner?_assign (r : Registry) (t t' : Token) (o : Key) :
    (r.assign t o).owner? t' = if t == t' then some o else r.owner? t' :=
  Table.get?_insert r.owners t t' o

end Registry

/-! ## Collected fees

The fees that the distributor has received, in order of arrival. -/

/-- A fee as the distributor records it. -/
structure FeeReceipt where
  addresses : List Key
  kind : Value
  coin : Tender
deriving DecidableEq

/-- The receipts of the fee distributor. -/
structure FeeLedger where
  receipts : List FeeReceipt := []
deriving DecidableEq

namespace FeeLedger

/-- Records a fee. -/
def deposit (l : FeeLedger) (addresses : List Key) (kind : Value) (coin : Tender) : FeeLedger :=
  ⟨l.receipts ++ [⟨addresses, kind, coin⟩]⟩

def total (l : FeeLedger) (denom : Key) : Nat :=
  let coins := (l.receipts.filterMap (·.coin.coin?)).filter fun c => (c.denom : Key) == denom
  (coins.map (·.amount)).foldr (· + ·) 0

@[simp] theorem receipts_deposit (l : FeeLedger) (addresses : List Key) (kind : Value)
    (coin : Tender) :
    (l.deposit addresses kind coin).receipts = l.receipts ++ [⟨addresses, kind, coin⟩] := rfl

end FeeLedger
end Pawnbook
