import Pawnbook.Action.Message
import Pawnbook.Book.EscrowAudit
import Pawnbook.Query

/-! # A walk through the life of a loan

Alice lists a token, Bob and Carol compete for it, Alice takes Carol's offer and repays; a second
loan, on Alice's own terms, runs into default and Bob claims the token. `Walkthrough.lines` tells
the story from what a book does. -/

namespace Pawnbook
namespace Walkthrough

/-! ### Steps on a book -/

/-- A step of the story: it changes the book and tells something, or fails. -/
abbrev Story (α : Type) := StateT Book (Except Error) α

/-- A message of a sender, with the funds given. -/
def sayWith (sender : String) (funds : Option (List Tender)) (a : Action) :
    Story (Option Transaction) := do
  let r := (← get).message sender funds a
  set r.book
  r.answer

/-- A message of a sender, with the funds that go with its action. -/
def say (sender : String) (a : Action) : Story (Option Transaction) := sayWith sender none a

/-- An attribute of a logged transaction. -/
def noted (t : Option Transaction) (key : String) : String :=
  ((t.bind (·.attributes.get? key)).map Value.label).getD ""

/-- The listing of Alice that a transaction made. -/
def listed (t : Option Transaction) : ListingKey :=
  match Text.readInt (noted t "loan_id") with
  | .ok id => ⟨"alice", .int id⟩
  | .error _ => ⟨"alice", .nothing⟩

/-- Lets some blocks pass. -/
def wait (blocks : Nat) : Story Unit := do
  let r := (← get).advance (.whole blocks) Book.blockSeconds
  set r.book
  r.answer

def coin (amount : Nat) : Coin := ⟨"luna", amount, by decide⟩

/-! ### Lines -/

def bar : String := String.ofList (List.replicate 70 '=')

def heading (title : String) : List String := ["", bar, title, bar]

/-- Digits in groups of three. -/
def grouped (digits : String) : String :=
  String.ofList (group digits.toList.reverse).reverse
where
  group : List Char → List Char
    | a :: b :: c :: d :: rest => a :: b :: c :: ',' :: group (d :: rest)
    | rest => rest

/-- A text with spaces behind it up to a width. -/
def left (width : Nat) (s : String) : String := String.ofList (s.toList.rightpad width ' ')

/-- A text with spaces before it up to a width. -/
def right (width : Nat) (s : String) : String := String.ofList (s.toList.leftpad width ' ')

def balances (b : Book) (accounts : List String) : List String :=
  accounts.map fun a =>
    "  " ++ left 10 a ++ " " ++ right 8 (grouped (b.bank.balance a "luna").text) ++ " luna"

def termsText (terms : Option Terms) : String :=
  match terms with
  | some t => t.principal.text ++ " + " ++ t.interest.text ++ " interest"
  | none => "no terms"

def offers (b : Book) (key : ListingKey) : Except Error (List String) := do
  let page ← b.queryOffers key.borrower key.id none none
  return page.items.map fun (id, o) =>
    "  offer " ++ id.label ++ ": " ++ left 6 o.lender.label ++ " " ++ termsText o.terms ++
      " -> " ++ o.state.text

/-- The owner of a token in running text. -/
def owner (b : Book) (t : Token) : String := (b.registry.holder t).label

/-! ### The story -/

/-- The token that the story is about. -/
def punk : Nft := ⟨.cw721, ⟨"punks", "58"⟩⟩

/-- The book before the first listing: everyone has ten thousand, and Alice the token. -/
def opening : Except Error Book := do
  let admin ← Malformed.toError (Envelope.make "admin" [])
  let config ← Config.instantiate admin (.text "nft-loans") "treasury" (.text "0.05") ""
  let time := (Time.read "2025-01-01T00:00:00").toOption.getD Book.defaultTime
  let b : Book := { name := .text "example", config, time, verbose := false, testMode := true }
  let b ← b.mint (.nft punk) "alice"
  (["alice", "bob", "carol"] : List Key).foldlM (fun b a => b.setBalance a "luna" (.whole 10000)) b

/-- The chapters from the first listing on. -/
def chapters : Story (List String) := do
  let b ← get
  let setup := heading "STEP 1: SETUP" ++
    ["Fee rate: " ++ b.config.feeRate.text ++ " of interest goes to treasury",
     "Alice owns " ++ punk.token.text] ++ balances b ["alice", "bob", "carol"]
  let key := listed (← say "alice" (.deposit [.nft punk] none (some (.text "blue chip")) none))
  let b ← get
  let state := ((b.listing? key).map (·.state.text)).getD ""
  let listing := heading "STEP 2: ALICE LISTS HER NFT" ++
    ["Listing " ++ key.text ++ " is " ++ state,
     "NFT is still with " ++ owner b punk.token ++ " until a loan starts"]
  let bobTerms := Terms.ofNat (coin 1000) 120 100
  let carolTerms := Terms.ofNat (coin 1200) 100 50
  let bobOffer := noted (← say "bob" (.makeOffer key bobTerms none)) "global_offer_id"
  let carolOffer := noted (← say "carol" (.makeOffer key carolTerms none)) "global_offer_id"
  let b ← get
  let competing := heading "STEP 3: BOB AND CAROL MAKE OFFERS" ++ (← offers b key) ++
    ["Escrow held by the contract: " ++ b.auditEscrow.heldValue.display]
  discard <| say "alice" (.acceptOffer carolOffer)
  let b ← get
  let accepted := heading "STEP 4: ALICE ACCEPTS CAROL'S OFFER" ++ (← offers b key) ++
    ["NFT now held by: " ++ owner b punk.token, "",
     "Bob's offer reads as refused, so he takes his escrow back:"]
  discard <| say "bob" (.withdrawRefused bobOffer)
  let accepted := accepted ++ balances (← get) ["alice", "bob", "carol"]
  wait 20
  let due ← Malformed.toError carolTerms.totalDue
  let repayment ← sayWith "alice" (some [.coin due]) (.repay key.id)
  let b ← get
  let repaid := heading "STEP 5: ALICE REPAYS" ++
    ["Repaid " ++ due.text ++ ": lender gets " ++ noted repayment "lender_payback" ++
      ", treasury gets " ++ noted repayment "treasury_cut",
     "NFT back with: " ++ owner b punk.token] ++ balances b ["alice", "bob", "carol", "treasury"]
  let ownTerms := Terms.ofNat (coin 500) 50 10
  let second := listed (← say "alice" (.deposit [.nft punk] ownTerms none none))
  discard <| say "bob" (.acceptLoan second none)
  let early :=
    match ((← get).message "bob" none (.claimDefault second)).answer with
    | .error e => ["Too early to claim: " ++ e.message]
    | .ok _ => []
  wait 10
  discard <| say "bob" (.claimDefault second)
  let b ← get
  let audit := b.auditEscrow
  let defaulted := heading "STEP 6: A SECOND LOAN THAT DEFAULTS" ++
    ["Bob took alice's own terms; the loan runs 10 blocks"] ++ early ++
    ["After the deadline the NFT goes to: " ++ owner b punk.token, "",
     "Escrow check: " ++ (if audit.isValid then "OK" else "does not balance"),
     "Transactions applied: " ++ Text.ofNat b.log.length]
  return setup ++ listing ++ competing ++ accepted ++ repaid ++ defaulted

def lines : List String :=
  [bar, "NFT-COLLATERALIZED LOAN - COMPLETE LIFECYCLE EXAMPLE", bar] ++
    match opening.bind chapters.run' with
    | .ok story => story
    | .error e => [e.message]

/-- The program: tells the whole story. -/
def main : IO Unit := lines.forM IO.println

end Walkthrough
end Pawnbook
