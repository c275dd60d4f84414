import Pawnbook.Asset

/-! # Transfers

What a transaction moves: coins between two different addresses, tokens, and fees, which go to
the fee distributor tagged with the collections they come from. None of them moves a zero
amount. -/

namespace Pawnbook

/-- A transfer of coins. -/
structure BankSend where
  sender : Key
  recipient : Key
  coin : Coin
  /-- The transfer goes to another address. -/
  distinct : (sender == recipient) = false
  /-- The transfer moves something. -/
  positive : coin.amount ≠ 0
deriving DecidableEq

/-- A transfer of one token. -/
structure NftTransfer where
  nft : Nft
  sender : Key
  recipient : Key
deriving DecidableEq

/-- A fee paid to the fee distributor. -/
structure FeeDeposit where
  sender : Key
  recipient : Key
  /-- The collections of the tokens that the fee comes from. -/
  addresses : List Key
  kind : Value
  coin : Coin
  /-- The fee is not zero. -/
  positive : coin.amount ≠ 0
deriving DecidableEq

/-- Sender, arrow and recipient. -/
def routeText (sender recipient : Key) : String := sender.label ++ "→" ++ recipient.label

namespace BankSend

/-- A transfer of coins, if it goes to another address and moves something. -/
def make (sender recipient : Key) (coin : Coin) : Except Malformed BankSend :=
  if h : (sender == recipient) = false then
    if h' : coin.amount = 0 then .error .zeroSend else .ok ⟨sender, recipient, coin, h, h'⟩
  else .error .selfSend

def text (s : BankSend) : String :=
  "BankSend(" ++ s.coin.text ++ ": " ++ routeText s.sender s.recipient ++ ")"

def toValue (s : BankSend) : Value :=
  .record "BankSend"
    [("sender", s.sender.value), ("recipient", s.recipient.value), ("coin", s.coin.toValue)]
    (some s.text)

end BankSend

namespace NftTransfer

/-- A transfer of an asset, if it is a token that can be transferred. -/
def make (asset : Asset) (sender recipient : Key) : Except Malformed NftTransfer :=
  match asset.nft? with
  | some nft => .ok ⟨nft, sender, recipient⟩
  | none => .error (.notTransferable asset.toValue)

def text (t : NftTransfer) : String :=
  "NftTransfer(" ++ t.nft.token.text ++ ": " ++ routeText t.sender t.recipient ++ ")"

def toValue (t : NftTransfer) : Value :=
  .record "NftTransfer"
    [("asset", t.nft.toValue), ("sender", t.sender.value), ("recipient", t.recipient.value)]
    (some t.text)

end NftTransfer

namespace FeeDeposit

/-- The kind of every fee that a repayment pays. -/
def fundsKind : Value := .text "funds"

/-- A fee, if it is not zero. -/
def make (sender recipient : Key) (addresses : List Key) (kind : Value) (coin : Coin) :
    Except Malformed FeeDeposit :=
  if h : coin.amount = 0 then .error .zeroFee
  else .ok ⟨sender, recipient, addresses, kind, coin, h⟩

def text (f : FeeDeposit) : String :=
  "FeeDeposit(" ++ f.coin.text ++ ": " ++ routeText f.sender f.recipient ++ ", " ++
    Value.bracketed (f.addresses.map Key.display) ++ ")"

def toValue (f : FeeDeposit) : Value :=
  .record "FeeDeposit"
    [("sender", f.sender.value), ("recipient", f.recipient.value),
     ("addresses", .tuple (f.addresses.map Key.value)), ("fee_type", f.kind),
     ("coin", f.coin.toValue)]
    (some f.text)

end FeeDeposit

/-- An outbound message of a transaction. What is no transfer is kept as it was given, and is
refused when the transaction is applied. -/
inductive Message where
  | send (s : BankSend)
  | transfer (t : NftTransfer)
  | fee (f : FeeDeposit)
  | other (v : Value)

namespace Message

def toValue : Message → Value
  | send s => s.toValue
  | transfer t => t.toValue
  | fee f => f.toValue
  | other v => v

def text (m : Message) : String := m.toValue.display

/-- The values that the printed form writes: all but the kind of a fee. -/
def named : Message → List Value
  | send s => [s.toValue]
  | transfer t => [t.toValue]
  | fee f => [f.sender.value, f.recipient.value, f.coin.toValue] ++ f.addresses.map Key.value
  | other v => [v]

end Message
end Pawnbook
