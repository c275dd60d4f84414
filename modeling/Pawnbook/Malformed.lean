import Pawnbook.Value.Equality

/-! # Malformed requests

The reasons why a value cannot be made or a call makes no sense, whatever the state of the book,
and their wording (`Malformed.message`). The values that the wording names (`Malformed.named`) must
be short enough to be written. -/

namespace Pawnbook

/-- A reason why a value or a call is malformed. -/
inductive Malformed where
  | blankDenom
  | amountKind (kind : String)
  | negativeAmount (n : Int)
  /-- What stands in a coin's place is none. -/
  | notCoin (kind : String)
  | principalKind (kind : String)
  | negativeInterest (n : Number)
  | negativeDuration (n : Number)
  | blankSender
  | selfSend
  | zeroSend
  | zeroFee
  | notTransferable (asset : Value)
  | notMintable (asset : Value)
  | emptyTransaction
  | negativeBalance (n : Number)
  | offerExists (id : Value)
  | offerMoved (id : Value)
  /-- What is written in an offer's place is none. -/
  | notOffer (kind : String)
  /-- Attached funds that are no transfer of coins. -/
  | notFunds (given : Value)
  | notWhole (text : String)
  | longNumber (digits : Nat)
  /-- A binary number that is none was asked for its whole part. -/
  | notANumber
  /-- A whole number beyond all binary numbers was to be counted as one of them. -/
  | hugeWhole
  /-- A value of this kind was to be counted with. -/
  | noNumber (kind : String)
  /-- A key cannot be taken apart. -/
  | noParts (kind : String)
  /-- A key in a pair's place has fewer than two parts. -/
  | fewParts (count : Nat)
  /-- A key in a pair's place has more than two parts. -/
  | manyParts
  | unknownAction (name : Value)
  | backwards (blocks : Number)
deriving DecidableEq

namespace Malformed

/-- The name of a kind as messages quote it. -/
def kindText (kind : String) : String := "<class '" ++ kind ++ "'>"

/-- The most characters that a message quotes of a text, the quotes included. -/
def quoteWidth : Nat := 200

/-- A quoted text as far as a message quotes it. -/
def clippedQuote (s : String) : String := String.ofList ((Text.quoted s).toList.take quoteWidth)

def message : Malformed → String
  | blankDenom => "Coin denom cannot be empty"
  | amountKind kind => "Coin amount must be int, got " ++ kindText kind
  | negativeAmount n => "Coin amount must be non-negative, got " ++ Text.ofInt n
  | principalKind kind => "LoanTerms principal must be Coin, got " ++ kindText kind
  | notCoin kind => kindText kind ++ " is no coin"
  | negativeInterest n => "LoanTerms interest must be non-negative, got " ++ n.text
  | negativeDuration n => "LoanTerms duration must be non-negative, got " ++ n.text
  | blankSender => "MessageInfo sender cannot be empty"
  | selfSend => "BankSend sender and recipient must be different"
  | zeroSend => "BankSend of a zero amount"
  | zeroFee => "FeeDeposit of a zero amount"
  | notTransferable asset => "NftTransfer of a non-NFT asset: " ++ asset.display
  | notMintable asset => "Only NFTs can be minted, got " ++ asset.display
  | emptyTransaction => "Transaction must have changes, funds or messages"
  | negativeBalance n => "Balance must be non-negative, got " ++ n.text
  | offerExists id => "Offer " ++ id.label ++ " already exists"
  | offerMoved id => "Offer " ++ id.label ++ " cannot change lender or collateral"
  | notOffer kind => kindText kind ++ " is no offer"
  | notFunds given => "Funds of no coin: " ++ given.display
  | notWhole text => "invalid literal for int() with base 10: " ++ clippedQuote text
  | longNumber digits => "whole number of " ++ Text.ofNat digits ++ " digits"
  | notANumber => "cannot convert float NaN to integer"
  | hugeWhole => "int too large to convert to float"
  | noNumber kind => kindText kind ++ " is no number"
  | noParts kind => (if kind = "str" then "string" else kind) ++ " index out of range"
  | fewParts count => "not enough values to unpack (expected 2, got " ++ Text.ofNat count ++ ")"
  | manyParts => "too many values to unpack (expected 2)"
  | unknownAction name => "Unknown action: " ++ name.label
  | backwards blocks => "Cannot move back " ++ blocks.neg.text ++ " blocks"

/-- The values that the wording writes. -/
def named : Malformed → List Value
  | negativeAmount n => [.int n]
  | negativeInterest n | negativeDuration n | negativeBalance n => [.ofNumber n]
  | backwards blocks => [.ofNumber blocks.neg]
  | notTransferable v | notMintable v | offerExists v | offerMoved v | notFunds v
  | unknownAction v => [v]
  | _ => []

end Malformed

/-! ### The next number

Counters of listings and offers are kept as values: they go on from whatever number they hold. -/

namespace Value

/-- The number after a value, if it can be counted with. -/
def next (v : Value) : Except Malformed Value :=
  match v.asNumber? with
  | some n => .ok (.ofNumber (n.add (.whole 1)))
  | none => .error (.noNumber v.kind)

@[simp] theorem next_int (n : Int) : (int n).next = .ok (int (n + 1)) := rfl

end Value
end Pawnbook
