import Pawnbook.Coin
import Pawnbook.Record.Key

/-! # Assets

What a borrower can list. Only single tokens of the two non-fungible standards can be taken into
custody (`Asset.nft?`); the owner of a token is kept by collection and token id alone, so the
two standards share one name space (`Token`). -/

namespace Pawnbook

/-- A token of a collection. -/
structure Token where
  collection : Key
  id : Key
deriving DecidableEq

namespace Token

/-- Collection and id as one key. -/
def toKey (t : Token) : Key := .pair t.collection t.id

instance : BEq Token := ⟨fun t u => t.toKey == u.toKey⟩

instance : EquivBEq Token where
  rfl {t} := BEq.rfl (a := t.toKey)
  symm {t u} h := BEq.symm (a := t.toKey) (b := u.toKey) h
  trans {t u v} h h' := BEq.trans (a := t.toKey) (b := u.toKey) (c := v.toKey) h h'

def text (t : Token) : String := t.collection.label ++ "/" ++ t.id.label

end Token

/-- The standard that a non-fungible token follows. -/
inductive Standard where
  | cw721
  | sg721
deriving DecidableEq

/-- A non-fungible token under its standard. -/
structure Nft where
  standard : Standard
  token : Token
deriving DecidableEq

/-- Something that can be listed. -/
inductive Asset where
  | nft (n : Nft)
  | cw1155 (token : Token) (value : Value)
  | cw20 (address : Key) (amount : Value)
  | native (coin : Tender)
deriving DecidableEq

namespace Standard

/-- The record name of a token of the standard. -/
def recordName : Standard → String
  | cw721 => "Cw721Coin"
  | sg721 => "Sg721Token"

end Standard

namespace Nft

def toValue (n : Nft) : Value :=
  .record n.standard.recordName
    [("address", n.token.collection.value), ("token_id", n.token.id.value)] none

end Nft

namespace Asset

/-- The non-fungible token that the asset is, if it is one. -/
def nft? : Asset → Option Nft
  | nft n => some n
  | _ => none

/-- The asset is a single transferable token. -/
def isNft (a : Asset) : Bool := a.nft?.isSome

/-- The token that the asset names: a semi-fungible balance names one as well. -/
def token? : Asset → Option Token
  | nft n => some n.token
  | cw1155 t _ => some t
  | _ => none

def toValue : Asset → Value
  | nft n => n.toValue
  | cw1155 t value =>
    .record "Cw1155Coin"
      [("address", t.collection.value), ("token_id", t.id.value), ("value", value)] none
  | cw20 address amount =>
    .record "Cw20Coin" [("address", address.value), ("amount", amount)] none
  | native coin => .record "NativeCoin" [("coin", coin.toValue)] none

def display (a : Asset) : String := a.toValue.display

/-- The same asset, its parts being compared as values. -/
def agrees : Asset → Asset → Bool
  | nft n, nft m => n.standard = m.standard && n.token == m.token
  | cw1155 t v, cw1155 u w => t == u && v.same w
  | cw20 a v, cw20 b w => a == b && v.same w
  | native c, native d => c.agrees d
  | _, _ => false

end Asset
end Pawnbook
