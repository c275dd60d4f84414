import Pawnbook.Proofs.Recorded

/-! # Calls with arguments of the right kinds

An argument of a call can be any value. Those that are of the kinds that the contract's functions
ask for (`Action.isProper`) can be put into texts if no number among them is too long to be written,
and what they leave in the book is regular (`Book.Regular`): terms are in whole numbers, and where a
listing should be there is one. Every book that proper calls lead to is regular
(`Reaches.regular`). -/

namespace Pawnbook

/-! ### Proper arguments -/

namespace Value

def isTextual : Value → Bool
  | text _ => true
  | _ => false

def isWhole : Value → Bool
  | int _ => true
  | _ => false

theorem isTextual_ok {v : Value} (h : v.isTextual = true) : ∃ s, v = .text s := by
  cases v with
  | text s => exact ⟨s, rfl⟩
  | _ => cases h

theorem isWhole_ok {v : Value} (h : v.isWhole = true) : ∃ n, v = .int n := by
  cases v with
  | int n => exact ⟨n, rfl⟩
  | _ => cases h

theorem legible_of_isTextual {v : Value} (h : v.isTextual = true) : v.Legible := by
  obtain ⟨s, rfl⟩ := isTextual_ok h
  exact legible_text s

theorem legible_of_isWhole {v : Value} (h : v.isWhole = true) (short : v.isShort = true) :
    v.Legible := by
  obtain ⟨n, rfl⟩ := isWhole_ok h
  exact (legible_int n).2 short

theorem writable_of_isTextual {v : Value} (h : v.isTextual = true) : v.Writable := by
  obtain ⟨s, rfl⟩ := isTextual_ok h
  exact writable_text s

end Value

def Token.isProper (t : Token) : Bool := t.collection.value.isTextual && t.id.value.isTextual

/-- What names the asset is a text, and its amount is a whole number. -/
def Asset.isProper : Asset → Bool
  | nft n => n.token.isProper
  | cw1155 t value => t.isProper && value.isWhole
  | cw20 address amount => address.value.isTextual && amount.isWhole
  | native coin => coin.coin?.isSome

def Terms.isWhole (t : Terms) : Bool := t.interest.whole?.isSome

/-- The borrower is a text, and the id a whole number. -/
def ListingKey.isProper (key : ListingKey) : Bool :=
  key.borrower.value.isTextual && key.id.value.isWhole

/-- The funds are coins. -/
def Envelope.isProper (e : Envelope) : Bool := e.funds.all (·.coin?.isSome)

namespace Action

/-- The arguments of the action are of the kinds that it asks for. A fee rate can be anything, as
it is read. -/
def isProper : Action → Bool
  | deposit assets terms comment preview =>
    assets.all (·.isProper) && terms.all (·.isWhole) && comment.all (·.isTextual) &&
      preview.all (·.isProper)
  | modify loanId terms comment preview =>
    loanId.value.isWhole && terms.all (·.isWhole) && comment.all (·.isTextual) &&
      preview.all (·.isProper)
  | withdraw loanId | repay loanId => loanId.value.isWhole
  | makeOffer key terms comment =>
    key.isProper && terms.all (·.isWhole) && comment.all (·.isTextual)
  | acceptLoan key comment => key.isProper && comment.all (·.isTextual)
  | acceptOffer id | cancelOffer id | refuseOffer id | withdrawRefused id
  | setFeeDistributor id => id.value.isTextual
  | claimDefault key => key.isProper
  | proposeOwner owner => owner.all (·.value.isTextual)
  | claimOwnership | setFeeRate _ => true

/-- The values that are given with the action. -/
def given : Action → List Value
  | deposit assets terms comment preview =>
    assets.map (·.toValue) ++ terms.toList.map (·.toValue) ++ comment.toList ++
      preview.toList.map (·.toValue)
  | modify loanId terms comment preview =>
    loanId.value :: terms.toList.map (·.toValue) ++ comment.toList ++
      preview.toList.map (·.toValue)
  | makeOffer key terms comment =>
    [key.borrower.value, key.id.value] ++ terms.toList.map (·.toValue) ++ comment.toList
  | acceptLoan key comment => [key.borrower.value, key.id.value] ++ comment.toList
  | claimDefault key => [key.borrower.value, key.id.value]
  | withdraw id | acceptOffer id | cancelOffer id | refuseOffer id | withdrawRefused id | repay id
  | setFeeDistributor id => [id.value]
  | proposeOwner owner => owner.toList.map (·.value)
  | setFeeRate rate => [rate]
  | claimOwnership => []

end Action

section proper

theorem Token.legible_of_isProper {t : Token} (h : t.isProper = true) :
    t.collection.value.Legible ∧ t.id.value.Legible := by
  rw [isProper, Bool.and_eq_true] at h
  exact ⟨Value.legible_of_isTextual h.1, Value.legible_of_isTextual h.2⟩

theorem Asset.legible_of_isProper {a : Asset} (h : a.isProper = true)
    (short : a.toValue.isShort = true) : a.toValue.Legible := by
  cases a with
  | nft n => simpa [toValue, Nft.toValue] using Token.legible_of_isProper h
  | cw1155 t value =>
      simp only [toValue, Value.isShort_record, List.forall_mem_cons] at short
      obtain ⟨-, -, amount, -⟩ := short
      rw [isProper, Bool.and_eq_true] at h
      simpa [toValue, and_assoc] using
        And.intro (Token.legible_of_isProper h.1) (Value.legible_of_isWhole h.2 amount)
  | cw20 address amount =>
      simp only [toValue, Value.isShort_record, List.forall_mem_cons] at short
      obtain ⟨-, amount, -⟩ := short
      rw [isProper, Bool.and_eq_true] at h
      simpa [toValue] using
        And.intro (Value.legible_of_isTextual h.1) (Value.legible_of_isWhole h.2 amount)
  | native coin =>
      simp only [toValue, Value.isShort_record, List.forall_mem_singleton] at short
      cases coin with
      | coin c =>
          have legible := Coin.legible_iff.2 (Coin.isShort_iff.1 short)
          simpa [toValue, Tender.toValue] using legible
      | other v => cases h

theorem Terms.legible_of_isShort {t : Terms} (short : t.toValue.isShort = true) :
    t.toValue.Legible := by
  simp only [toValue, Value.isShort_record, List.forall_mem_cons] at short
  obtain ⟨principal, interest, duration, -⟩ := short
  exact legible_iff.2 ⟨Coin.legible_iff.2 (Coin.isShort_iff.1 principal), interest, duration⟩

theorem ListingKey.legible_of_isProper {key : ListingKey} (h : key.isProper = true)
    (short : key.id.value.isShort = true) : key.borrower.value.Legible ∧ key.id.value.Legible := by
  rw [isProper, Bool.and_eq_true] at h
  exact ⟨Value.legible_of_isTextual h.1, Value.legible_of_isWhole h.2 short⟩

theorem forall_mem_of_all {α : Type} {p : α → Bool} {Q : α → Prop} {o : Option α}
    (h : o.all p = true) (hp : ∀ a, p a = true → Q a) : ∀ a ∈ o, Q a := by
  rintro a rfl
  exact hp a h

/-- Proper arguments can be put into texts, if all of them can be written. -/
theorem Action.legible_of_isProper {a : Action} (h : a.isProper = true)
    (short : ∀ v ∈ a.given, v.isShort = true) : a.Legible := by
  have texts := fun {o : Option Value} (h : o.all (·.isTextual) = true) =>
    forall_mem_of_all h fun v => Value.legible_of_isTextual
  have proposed : ∀ {o : Option Terms}, (∀ v ∈ o.toList.map (·.toValue), v.isShort = true) →
      ∀ t ∈ o, t.toValue.Legible := by
    rintro _ short t rfl
    exact Terms.legible_of_isShort (short _ List.mem_cons_self)
  have shown : ∀ {o : Option Asset}, o.all (·.isProper) = true →
      (∀ v ∈ o.toList.map (·.toValue), v.isShort = true) → ∀ a ∈ o, a.toValue.Legible := by
    rintro _ h short a rfl
    exact Asset.legible_of_isProper h (short _ List.mem_cons_self)
  cases a with
  | deposit =>
      simp only [isProper, Bool.and_eq_true, List.all_eq_true] at h
      obtain ⟨⟨⟨assets, -⟩, comment⟩, preview⟩ := h
      simp only [given, List.forall_mem_append] at short
      obtain ⟨⟨⟨listed, terms⟩, -⟩, named⟩ := short
      exact ⟨fun a ha => Asset.legible_of_isProper (assets a ha)
        (listed _ (List.mem_map_of_mem ha)), proposed terms, texts comment, shown preview named⟩
  | modify =>
      simp only [isProper, Bool.and_eq_true] at h
      obtain ⟨⟨⟨id, -⟩, comment⟩, preview⟩ := h
      simp only [given, List.forall_mem_append, List.forall_mem_cons] at short
      obtain ⟨⟨⟨number, terms⟩, -⟩, named⟩ := short
      exact ⟨Value.legible_of_isWhole id number, proposed terms, texts comment,
        shown preview named⟩
  | makeOffer =>
      simp only [isProper, Bool.and_eq_true] at h
      simp only [given, List.forall_mem_append, List.forall_mem_cons] at short
      obtain ⟨⟨⟨-, number, -⟩, terms⟩, -⟩ := short
      exact ⟨ListingKey.legible_of_isProper h.1.1 number, proposed terms, texts h.2⟩
  | acceptLoan =>
      simp only [isProper, Bool.and_eq_true] at h
      simp only [given, List.forall_mem_append, List.forall_mem_cons] at short
      exact ⟨ListingKey.legible_of_isProper h.1 short.1.2.1, texts h.2⟩
  | withdraw | repay => exact Value.legible_of_isWhole h (short _ List.mem_cons_self)
  | acceptOffer | cancelOffer | refuseOffer | withdrawRefused | setFeeDistributor =>
      exact Value.legible_of_isTextual h
  | claimDefault =>
      exact ListingKey.legible_of_isProper h (short _ (List.mem_cons_of_mem _ List.mem_cons_self))
  | proposeOwner => exact forall_mem_of_all h fun k => Value.legible_of_isTextual
  | claimOwnership => trivial
  | setFeeRate => exact fun rate valid => (Config.checkFeeRate_ok valid).legible

end proper

/-! ### Regular books -/

namespace Book

/-- Listings and offers have terms in whole numbers, and nothing but listings is kept among them. -/
structure Regular (b : Book) : Prop where
  kept : ∀ key r, b.listings.get? key = some r → ∃ l, r = .listing l
  listing : ∀ key l, b.listing? key = some l → ∀ t ∈ l.terms, t.isWhole = true
  offer : ∀ id o, b.storedOffer? id = some o → ∀ t ∈ o.terms, t.isWhole = true

end Book

/-- The change writes a record into a slot of its kind, with terms in whole numbers. -/
inductive Change.Regular : Change → Prop
  | config {old new : Config} : Regular (.config old new)
  | borrower {name : Key} {old : Option Borrower} {new : Borrower} :
      Regular (.borrower name old new)
  | listing {key : ListingKey} {old : Option Listing} {new : Listing}
      (whole : ∀ t ∈ new.terms, t.isWhole = true) : Regular (.listing key old new)
  | offer {id : Key} {old : Option Offer} {new : Offer}
      (whole : ∀ t ∈ new.terms, t.isWhole = true) : Regular (.offer id old new)

namespace Book
variable {b : Book}

theorem Regular.put (h : b.Regular) {c : Change} (hc : c.Regular) : (b.put c).Regular := by
  cases hc with
  | config | borrower => exact ⟨h.kept, h.listing, h.offer⟩
  | listing whole =>
      refine ⟨fun key r hr => ?_, fun key l hl => ?_, h.offer⟩
      · rw [show (b.put (.listing _ _ _)).listings = b.listings.insert _ (.listing _) from rfl,
          Table.get?_insert] at hr
        split at hr
        · cases hr
          exact ⟨_, rfl⟩
        · exact h.kept key r hr
      · rw [listing?_put_listing] at hl
        split at hl
        · cases hl
          exact whole
        · exact h.listing key l hl
  | @offer id old new whole =>
      refine ⟨?_, ?_, fun id' o ho => ?_⟩
      · cases old <;> exact h.kept
      · cases old <;> exact h.listing
      rw [storedOffer?_put_offer] at ho
      split at ho
      · cases ho
        exact whole
      · exact h.offer id' o ho

theorem Regular.putAll {cs : List Change} (h : b.Regular) (hc : ∀ c ∈ cs, c.Regular) :
    (b.putAll cs).Regular := by
  induction cs generalizing b with
  | nil => exact h
  | cons c cs ih =>
      rw [List.forall_mem_cons] at hc
      exact ih (h.put hc.1) hc.2

end Book

theorem Action.Plan.regular {b : Book} {e : Envelope} {a : Action} {cs : List Change}
    {ss : List BankSend} {ms : List Message} {as : Attributes} (plan : Plan b e a cs ss ms as)
    (hb : b.Regular) (proper : a.isProper = true) : ∀ c ∈ cs, c.Regular := by
  have given := fun {o : Option Terms} (h : o.all (·.isWhole) = true) =>
    forall_mem_of_all (Q := fun t => t.isWhole = true) h fun t ht => ht
  have listed : ∀ {key : ListingKey} {l : Listing}, b.listings.get? key = some (.listing l) →
      ∀ t ∈ l.terms, t.isWhole = true := fun stored =>
    hb.listing _ _ (Book.listing?_of_get? stored)
  cases plan with
  | deposit =>
      simp only [isProper, Bool.and_eq_true] at proper
      rw [List.forall_mem_cons, List.forall_mem_singleton]
      exact ⟨.borrower, .listing (given proper.1.1.2)⟩
  | modify stored =>
      simp only [isProper, Bool.and_eq_true] at proper
      rw [List.forall_mem_singleton]
      exact .listing (forall_mem_or (given proper.1.1.2) (listed stored))
  | withdraw stored | repay stored | claim stored =>
      have whole := listed stored
      rw [List.forall_mem_singleton]
      exact .listing whole
  | makeOffer stored =>
      have whole := listed stored
      simp only [isProper, Bool.and_eq_true] at proper
      rw [List.forall_mem_cons, List.forall_mem_cons, List.forall_mem_singleton]
      exact ⟨.config, .listing whole, .offer (given proper.1.2)⟩
  | acceptLoan stored _ proposed =>
      have whole := listed stored
      rw [List.forall_mem_cons, List.forall_mem_cons, List.forall_mem_singleton]
      refine ⟨.config, .listing whole, .offer ?_⟩
      rw [proposed] at whole
      exact whole
  | acceptOffer offer _ stored =>
      have whole := listed stored
      have agreed := hb.offer _ _ offer
      rw [List.forall_mem_cons, List.forall_mem_singleton]
      exact ⟨.listing whole, .offer agreed⟩
  | cancel offer | refuse offer | recover offer =>
      have agreed := hb.offer _ _ offer
      rw [List.forall_mem_singleton]
      exact .offer agreed
  | configure =>
      rw [List.forall_mem_singleton]
      exact .config

/-! ### Over a run -/

/-- All that is computed are proper calls. -/
def Move.isProper : Move → Bool
  | .compute e a => e.isProper && a.isProper
  | _ => true

theorem Book.Moved.regular {P : Book → Move → Prop} {b b' : Book} {m : Move}
    (h : b.Moved (fun b m => P b m ∧ b.Regular) m b') (proper : ∀ b m, P b m → m.isProper = true)
    (hb : b.Regular) : b'.Regular := by
  cases h with
  | still | number | advance | fund | mint | transfer => exact ⟨hb.kept, hb.listing, hb.offer⟩
  | @post place p b₀ e a ss as source =>
      obtain ⟨allowed, before⟩ := source.allowed
      have given := proper _ _ allowed
      rw [Move.isProper, Bool.and_eq_true] at given
      obtain ⟨kept, listing, offer⟩ := hb.putAll (source.computed.plan.regular before given.2)
      have alike := b.alike_posted p
      refine ⟨?_, fun key l hl => ?_, fun id o ho => ?_⟩
      · rw [alike.listings]
        exact kept
      · exact listing key l ((alike.listing? key).symm.trans hl)
      · exact offer id o ((alike.storedOffer? id).symm.trans ho)

theorem Reaches.regular {P : Book → Move → Prop} {s₀ s : Session} (run : Reaches P s₀ s)
    (fresh : s₀.IsFresh) (proper : ∀ b m, P b m → m.isProper = true) : s.book.Regular := by
  refine (run.enrich fresh ⟨?_, ?_, ?_⟩ fun _ _ hb moved => moved.regular proper hb).2
  · intro key r hr
    rw [fresh.listings] at hr
    cases hr
  · intro key l hl
    rw [Book.listing?, fresh.listings] at hl
    cases hl
  · intro id o ho
    rw [Book.storedOffer?, fresh.offers] at ho
    cases ho

end Pawnbook
