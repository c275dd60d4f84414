import Pawnbook.Proofs.Session

/-! # Custody

The contract holds the tokens of the listings whose loans have started, each once, and no others
(`Book.Custody`). Nothing in a record forbids to list one token many times; it is the rehearsal of
the transfers that lets a token into custody only from its owner (`Registry.holds_take`), so a
token that is in custody for one loan, or that has just been taken for the same one, cannot be
taken again. -/

namespace Pawnbook

/-! ### Tokens that are handed over -/

namespace Registry
variable {r : Registry} {c k : Key} {t : Token}

/-- The token is entered in the name of the owner. -/
def Holds (r : Registry) (c : Key) (t : Token) : Prop :=
  ∃ o, r.owner? t = some o ∧ (o == c) = true

instance : Decidable (r.Holds c t) :=
  decidable_of_iff ((r.owner? t).any (· == c) = true) (by simp [Holds, Option.any_eq_true])

theorem Holds.congr {t u : Token} (h : r.Holds c t) (ht : (t == u) = true) : r.Holds c u := by
  obtain ⟨o, ho, hc⟩ := h
  refine ⟨o, ?_, hc⟩
  rw [owner?, ← Table.get?_congr r.owners ht]
  exact ho

theorem Holds.holder {t : Token} (h : r.Holds c t) : (r.holder t == c) = true := by
  obtain ⟨o, ho, hc⟩ := h
  rw [Registry.holder, ho]
  exact hc

theorem holds_assign (t u : Token) (o : Key) :
    (r.assign t o).Holds c u ↔ if (t == u) = true then (o == c) = true else r.Holds c u := by
  unfold Holds
  rw [owner?_assign]
  split
  · constructor
    · rintro ⟨o', ho, hc⟩
      cases ho
      exact hc
    · exact fun hc => ⟨o, rfl, hc⟩
  · exact Iff.rfl

/-- A token that is neither held nor handed to the contract changes nothing for it. -/
theorem holds_assign_outside {t : Token} {o : Key} (ht : ¬ r.Holds c t) (ho : (o == c) = false)
    (u : Token) : (r.assign t o).Holds c u ↔ r.Holds c u := by
  rw [holds_assign]
  split
  · rename_i htu
    constructor
    · intro h
      rw [ho] at h
      cases h
    · exact fun h => absurd (h.congr (BEq.symm htu)) ht
  · exact Iff.rfl

theorem honours_append (ns : List Message) : ∀ (ms : List Message) (r : Registry),
    r.Honours (ms ++ ns) ↔ r.Honours ms ∧ (ms.foldl carry r).Honours ns
  | [], r => by simp [Honours]
  | m :: ms, r => by
      rw [List.cons_append, Honours, honours_append ns ms, Honours, and_assoc]
      rfl

theorem foldl_carry_sends (ss : List BankSend) :
    ∀ r : Registry, (ss.map .send).foldl carry r = r := by
  induction ss with
  | nil => intro r; rfl
  | cons s ss ih => exact ih

theorem foldl_carry_fees (fs : List FeeDeposit) :
    ∀ r : Registry, (fs.map .fee).foldl carry r = r := by
  induction fs with
  | nil => intro r; rfl
  | cons f fs ih => exact ih

theorem holds_gather : ∀ {ts : List NftTransfer} {r : Registry}, (∀ t ∈ ts, t.recipient = c) →
    ∀ u, ((ts.map .transfer).foldl carry r).Holds c u ↔
      r.Holds c u ∨ ∃ t ∈ ts, (t.nft.token == u) = true
  | [], r, _, u => by simp
  | t :: ts, r, hts, u => by
      have hcarry : r.carry (.transfer t) = r.assign t.nft.token c := by
        rw [carry, hts t List.mem_cons_self]
      rw [List.map_cons, List.foldl_cons, hcarry,
        holds_gather (fun u hu => hts u (List.mem_cons_of_mem _ hu)), holds_assign]
      by_cases htu : (t.nft.token == u) = true
      · simp [htu]
      · simp [htu]

/-- Tokens that another hands to the contract: no token comes twice or was there before. -/
theorem holds_take (hk : (k == c) = false) : ∀ {ts : List NftTransfer} {r : Registry},
    (∀ t ∈ ts, t.sender = k ∧ t.recipient = c) → r.Honours (ts.map .transfer) →
    ts.Pairwise (fun t u => (t.nft.token == u.nft.token) = false) ∧
      ∀ t ∈ ts, ¬ r.Holds c t.nft.token
  | [], r, _, _ => ⟨.nil, by simp⟩
  | t :: ts, r, hts, ⟨hh, honours⟩ => by
      obtain ⟨hsender, hrecipient⟩ := hts t List.mem_cons_self
      obtain ⟨hpair, hfree⟩ :=
        holds_take hk (fun u hu => hts u (List.mem_cons_of_mem _ hu)) honours
      have hcarry : r.carry (.transfer t) = r.assign t.nft.token c := by rw [carry, hrecipient]
      rw [hcarry] at hfree
      have hne : ∀ u ∈ ts, (t.nft.token == u.nft.token) = false := by
        intro u hu
        apply Bool.eq_false_iff.2
        intro htu
        apply hfree u hu
        rw [holds_assign, if_pos htu]
        exact BEq.rfl
      refine ⟨List.pairwise_cons.2 ⟨hne, hpair⟩, ?_⟩
      intro u hu hheld
      rcases List.mem_cons.1 hu with rfl | hu
      · have howner : (r.holder u.nft.token == k) = true := hsender ▸ hh u rfl
        have hkc : (k == c) = true := BEq.trans (BEq.symm howner) hheld.holder
        rw [hk] at hkc
        cases hkc
      · apply hfree u hu
        rw [holds_assign, hne u hu]
        exact hheld

theorem honours_held : ∀ {ts : List NftTransfer} {r : Registry},
    (∀ t ∈ ts, t.sender = c) → (∀ t ∈ ts, r.Holds c t.nft.token) →
    ts.Pairwise (fun t u => (t.nft.token == u.nft.token) = false) → r.Honours (ts.map .transfer)
  | [], _, _, _, _ => trivial
  | t :: ts, r, senders, held, distinct => by
      rw [List.forall_mem_cons] at senders held
      obtain ⟨hne, distinct⟩ := List.pairwise_cons.1 distinct
      refine ⟨?_, honours_held senders.2 ?_ distinct⟩
      · rintro u ⟨⟩
        rw [senders.1]
        exact held.1.holder
      · intro u hu
        show (r.assign t.nft.token t.recipient).Holds c u.nft.token
        rw [holds_assign, hne u hu]
        exact held.2 u hu

theorem holds_release (hk : (k == c) = false) : ∀ {ts : List NftTransfer} {r : Registry},
    (∀ t ∈ ts, t.recipient = k) → ∀ u, ((ts.map .transfer).foldl carry r).Holds c u ↔
      r.Holds c u ∧ ∀ t ∈ ts, (t.nft.token == u) = false
  | [], r, _, u => by simp
  | t :: ts, r, hts, u => by
      have hcarry : r.carry (.transfer t) = r.assign t.nft.token k := by
        rw [carry, hts t List.mem_cons_self]
      rw [List.map_cons, List.foldl_cons, hcarry,
        holds_release hk (fun u hu => hts u (List.mem_cons_of_mem _ hu)), holds_assign]
      by_cases htu : (t.nft.token == u) = true
      · simp [htu, hk]
      · simp [htu]

end Registry

/-- The tokens among some assets. -/
def tokensIn (assets : List Asset) : List Token := assets.filterMap fun a => a.nft?.map (·.token)

theorem tokensIn_map (ts : List NftTransfer) :
    tokensIn (ts.map fun t => .nft t.nft) = ts.map fun t => t.nft.token := by
  induction ts with
  | nil => rfl
  | cons t ts ih =>
      rw [List.map_cons, List.map_cons, ← ih]
      rfl

/-! ### Pledged assets -/

namespace Book

/-- The assets of a listing whose loan has started. -/
def Pledges (b : Book) (key : ListingKey) (assets : List Asset) : Prop :=
  ∃ l, b.listing? key = some l ∧ l.state = .started ∧ l.assets = assets

/-- The contract is the owner of the token. -/
def Holds (b : Book) (t : Token) : Prop := b.registry.Holds b.address t

instance (b : Book) (t : Token) : Decidable (b.Holds t) :=
  inferInstanceAs (Decidable (b.registry.Holds b.address t))

/-- What the contract holds is the disjoint union of what is pledged. -/
structure Custody (b : Book) : Prop where
  /-- A pledged asset is a token that the contract holds. -/
  held : ∀ key assets, b.Pledges key assets → ∀ a ∈ assets, ∃ n, a = .nft n ∧ b.Holds n.token
  /-- No token is pledged twice in one listing. -/
  once : ∀ key assets, b.Pledges key assets →
    (tokensIn assets).Pairwise fun t u => (t == u) = false
  /-- Two listings pledge no token in common. -/
  apart : ∀ key key' assets assets', b.Pledges key assets → b.Pledges key' assets' →
    (key == key') = false → ∀ t ∈ tokensIn assets, ∀ u ∈ tokensIn assets', (t == u) = false
  /-- What the contract holds is pledged. -/
  only : ∀ t, b.Holds t →
    ∃ key assets, b.Pledges key assets ∧ ∃ u ∈ tokensIn assets, (u == t) = true

/-- What is pledged is in custody, each token for one loan. -/
structure Secured (b : Book) : Prop where
  held : ∀ key assets, b.Pledges key assets → ∀ a ∈ assets, ∃ n, a = .nft n ∧ b.Holds n.token
  once : ∀ key assets, b.Pledges key assets →
    (tokensIn assets).Pairwise fun t u => (t == u) = false
  apart : ∀ key key' assets assets', b.Pledges key assets → b.Pledges key' assets' →
    (key == key') = false → ∀ t ∈ tokensIn assets, ∀ u ∈ tokensIn assets', (t == u) = false

theorem Custody.secured {b : Book} (h : b.Custody) : b.Secured := ⟨h.held, h.once, h.apart⟩

/-- How pledges and the tokens in custody go on together: nothing changes for them, or the tokens of
one listing come in or go out. -/
inductive Handover (b b' : Book) : Prop
  | keep (pledges : ∀ key assets, b'.Pledges key assets ↔ b.Pledges key assets)
      (holds : ∀ t, b'.Holds t ↔ b.Holds t)
  | take {key : ListingKey} {ts : List NftTransfer} (free : ∀ assets, ¬ b.Pledges key assets)
      (pledges : ∀ k assets, b'.Pledges k assets ↔
        if (key == k) = true then ts.map (fun t => .nft t.nft) = assets else b.Pledges k assets)
      (distinct : ts.Pairwise fun t u => (t.nft.token == u.nft.token) = false)
      (fresh : ∀ t ∈ ts, ¬ b.Holds t.nft.token)
      (holds : ∀ u, b'.Holds u ↔ b.Holds u ∨ ∃ t ∈ ts, (t.nft.token == u) = true)
  | release {key : ListingKey} {ts : List NftTransfer}
      (pledged : b.Pledges key (ts.map fun t => .nft t.nft))
      (pledges : ∀ k assets, b'.Pledges k assets ↔ (key == k) = false ∧ b.Pledges k assets)
      (holds : ∀ u, b'.Holds u ↔ b.Holds u ∧ ∀ t ∈ ts, (t.nft.token == u) = false)

section pledges
variable {b b' : Book} {key : ListingKey} {l new : Listing} {assets : List Asset}
  {ts : List NftTransfer}

theorem pledges_congr {key' : ListingKey} (h : (key == key') = true) :
    b.Pledges key assets ↔ b.Pledges key' assets := by
  unfold Pledges
  rw [b.listing?_congr h]

theorem pledges_iff_of_stored (h : b.listing? key = some l) :
    b.Pledges key assets ↔ l.state = .started ∧ l.assets = assets := by
  unfold Pledges
  rw [h]
  simp

theorem pledges_put (hb : ∀ k, b'.listing? k = if key == k then some new else b.listing? k)
    (k : ListingKey) : b'.Pledges k assets ↔
      if (key == k) = true then new.state = .started ∧ new.assets = assets
      else b.Pledges k assets := by
  split
  · rename_i hk
    exact pledges_iff_of_stored (by rw [hb, if_pos hk])
  · rename_i hk
    unfold Pledges
    rw [hb, if_neg hk]

/-- A write that neither starts nor ends a loan leaves the pledges alone. -/
theorem pledges_put_of_iff (hb : ∀ k, b'.listing? k = if key == k then some new else b.listing? k)
    (same : ∀ assets, b.Pledges key assets ↔ new.state = .started ∧ new.assets = assets)
    (k : ListingKey) (assets : List Asset) : b'.Pledges k assets ↔ b.Pledges k assets := by
  rw [pledges_put hb]
  split
  · rename_i hk
    rw [← same, pledges_congr hk]
  · exact Iff.rfl

theorem Secured.holds_of_mem (h : b.Secured) (hp : b.Pledges key assets) {t : Token}
    (ht : t ∈ tokensIn assets) : b.Holds t := by
  obtain ⟨a, ha, hat⟩ := List.mem_filterMap.1 ht
  obtain ⟨n, rfl, hn⟩ := h.held key assets hp a ha
  cases hat
  exact hn

theorem Secured.keep (h : b.Secured)
    (pledges : ∀ key assets, b'.Pledges key assets ↔ b.Pledges key assets)
    (holds : ∀ t, b.Holds t → b'.Holds t) : b'.Secured where
  held key assets hp a ha := by
    obtain ⟨n, hn, held⟩ := h.held key assets ((pledges _ _).1 hp) a ha
    exact ⟨n, hn, holds _ held⟩
  once key assets hp := h.once key assets ((pledges _ _).1 hp)
  apart key key' assets assets' hp hp' :=
    h.apart key key' assets assets' ((pledges _ _).1 hp) ((pledges _ _).1 hp')

/-- What is pledged stays in custody, and what comes in was not there before. -/
theorem Secured.handover (h : b.Secured) (step : b.Handover b') : b'.Secured := by
  cases step with
  | keep pledges holds => exact h.keep pledges fun t => (holds t).2
  | @take key ts free pledges distinct fresh holds =>
      -- no token that comes in is pledged for another listing
      have new : ∀ {key' : ListingKey} {as : List Asset}, b.Pledges key' as →
          ∀ t ∈ tokensIn (ts.map fun t => .nft t.nft), ∀ u ∈ tokensIn as, (t == u) = false := by
        intro key' as hp t ht u hu
        rw [tokensIn_map] at ht
        obtain ⟨w, hw, rfl⟩ := List.mem_map.1 ht
        exact Bool.eq_false_iff.2 fun hwu =>
          fresh w hw ((h.holds_of_mem hp hu).congr (BEq.symm hwu))
      constructor
      · intro k assets hp a ha
        rw [pledges] at hp
        split at hp
        · subst hp
          obtain ⟨t, ht, rfl⟩ := List.mem_map.1 ha
          exact ⟨t.nft, rfl, (holds _).2 (.inr ⟨t, ht, BEq.rfl⟩)⟩
        · obtain ⟨n, rfl, hn⟩ := h.held k assets hp a ha
          exact ⟨n, rfl, (holds _).2 (.inl hn)⟩
      · intro k assets hp
        rw [pledges] at hp
        split at hp
        · subst hp
          rw [tokensIn_map, List.pairwise_map]
          exact distinct
        · exact h.once k assets hp
      · intro k k' assets assets' hp hp' hk t ht u hu
        rw [pledges] at hp hp'
        split at hp <;> split at hp'
        · rename_i h₁ h₂
          rw [BEq.trans (BEq.symm h₁) h₂] at hk
          cases hk
        · subst hp
          exact new hp' t ht u hu
        · subst hp'
          exact Bool.eq_false_iff.2 fun htu =>
            Bool.eq_false_iff.1 (new hp u hu t ht) (BEq.symm htu)
        · exact h.apart k k' assets assets' hp hp' hk t ht u hu
  | @release key ts pledged pledges holds =>
      refine ⟨?_, fun k assets hp => h.once k assets ((pledges _ _).1 hp).2,
        fun k k' assets assets' hp hp' =>
          h.apart k k' assets assets' ((pledges _ _).1 hp).2 ((pledges _ _).1 hp').2⟩
      intro k assets hp a ha
      obtain ⟨hk, hp⟩ := (pledges _ _).1 hp
      obtain ⟨n, rfl, hn⟩ := h.held k assets hp a ha
      refine ⟨n, rfl, (holds _).2 ⟨hn, ?_⟩⟩
      intro t ht
      refine h.apart key k _ assets pledged hp hk _ ?_ _ (List.mem_filterMap.2 ⟨_, ha, rfl⟩)
      rw [tokensIn_map]
      exact List.mem_map_of_mem ht

theorem Custody.keep (h : b.Custody)
    (pledges : ∀ key assets, b'.Pledges key assets ↔ b.Pledges key assets)
    (holds : ∀ t, b'.Holds t ↔ b.Holds t) : b'.Custody := by
  obtain ⟨held, once, apart, only⟩ := h
  constructor <;> simp only [pledges, holds] <;> assumption

/-- What comes in is pledged, and what is no longer pledged goes out. -/
theorem Custody.handover (h : b.Custody) (step : b.Handover b') : b'.Custody := by
  obtain ⟨held, once, apart⟩ := h.secured.handover step
  refine ⟨held, once, apart, ?_⟩
  intro u hu
  cases step with
  | keep pledges holds => exact (h.keep pledges holds).only u hu
  | @take key ts free pledges distinct fresh holds =>
      rcases (holds u).1 hu with hu | ⟨t, ht, htu⟩
      · obtain ⟨k, assets, hp, t, ht, htu⟩ := h.only u hu
        refine ⟨k, assets, (pledges _ _).2 ?_, t, ht, htu⟩
        split
        · rename_i hk
          exact absurd ((pledges_congr hk).2 hp) (free assets)
        · exact hp
      · refine ⟨key, ts.map fun t => .nft t.nft, (pledges _ _).2 (by rw [if_pos BEq.rfl]), ?_⟩
        rw [tokensIn_map]
        exact ⟨t.nft.token, List.mem_map_of_mem ht, htu⟩
  | @release key ts pledged pledges holds =>
      obtain ⟨hu, hts⟩ := (holds u).1 hu
      obtain ⟨k, assets, hp, t, ht, htu⟩ := h.only u hu
      refine ⟨k, assets, (pledges _ _).2 ⟨Bool.eq_false_iff.2 ?_, hp⟩, t, ht, htu⟩
      intro hk
      obtain ⟨l, hl, -, rfl⟩ := (pledges_congr hk).2 hp
      obtain ⟨l', hl', -, hassets⟩ := pledged
      cases hl.symm.trans hl'
      rw [hassets, tokensIn_map] at ht
      obtain ⟨w, hw, rfl⟩ := List.mem_map.1 ht
      exact Bool.eq_false_iff.1 (hts w hw) htu

/-- The tokens of a published listing are taken into custody when its loan starts. -/
theorem Handover.lend {borrower : Key} (stored : b.listing? key = some l)
    (published : l.state = .published) (started : new.state = .started)
    (assets : new.assets = l.assets)
    (listings : ∀ k, b'.listing? k = if key == k then some new else b.listing? k)
    (custody : l.intoCustody borrower b.address = .ok ts)
    (stranger : (borrower == b.address) = false) (honoured : b.registry.Honours (ts.map .transfer))
    (holds : ∀ u, b'.Holds u ↔
      ((ts.map .transfer).foldl Registry.carry b.registry).Holds b.address u) :
    b.Handover b' := by
  obtain ⟨hassets, hts⟩ := Listing.moveAssets_ok custody
  obtain ⟨distinct, fresh⟩ := Registry.holds_take stranger hts honoured
  have after := Registry.holds_gather (r := b.registry) fun t ht => (hts t ht).2
  have free : ∀ assets, ¬ b.Pledges key assets := by
    intro assets hp
    cases published.symm.trans ((pledges_iff_of_stored stored).1 hp).1
  have pledges : ∀ k as, b'.Pledges k as ↔
      if (key == k) = true then ts.map (fun t => .nft t.nft) = as else b.Pledges k as := by
    intro k as
    rw [pledges_put listings, assets, hassets]
    simp [started]
  exact .take free pledges distinct fresh fun u => (holds u).trans (after u)

/-- The tokens of a started listing leave custody when its loan is settled. -/
theorem Handover.settle {recipient : Key} (stored : b.listing? key = some l)
    (started : l.state = .started) (settled : new.state ≠ .started)
    (listings : ∀ k, b'.listing? k = if key == k then some new else b.listing? k)
    (released : l.outOfCustody b.address recipient = .ok ts)
    (stranger : (recipient == b.address) = false)
    (holds : ∀ u, b'.Holds u ↔
      ((ts.map .transfer).foldl Registry.carry b.registry).Holds b.address u) :
    b.Handover b' := by
  obtain ⟨hassets, hts⟩ := Listing.moveAssets_ok released
  have after := Registry.holds_release stranger (r := b.registry) fun t ht => (hts t ht).2
  have pledged : b.Pledges key (ts.map fun t => .nft t.nft) :=
    (pledges_iff_of_stored stored).2 ⟨started, hassets⟩
  have pledges : ∀ k as, b'.Pledges k as ↔ (key == k) = false ∧ b.Pledges k as := by
    intro k as
    rw [pledges_put listings]
    by_cases hk : (key == k) = true
    · simp [hk, settled]
    · simp [hk]
  exact .release pledged pledges fun u => (holds u).trans (after u)

end pledges
end Book

/-! ### Every posting is a handover -/

section postings
variable {b b' : Book} {c : Config} {e : Envelope} {a : Action} {cs : List Change}
  {ss : List BankSend} {ms : List Message} {as : Attributes}

theorem Registry.honours_transfers {r : Registry} {ss ps : List BankSend} {ts : List NftTransfer}
    (h : r.Honours (ss.map Message.send ++ (ps.map .send ++ ts.map .transfer))) :
    r.Honours (ts.map .transfer) := by
  have h := ((honours_append _ _ _).1 ((honours_append _ _ _).1 h).2).2
  rw [foldl_carry_sends, foldl_carry_sends] at h
  exact h

/-- Every listing belongs to someone else than the contract. -/
def Book.Foreign (b : Book) : Prop :=
  ∀ key l, b.listing? key = some l → (key.borrower == b.address) = false

theorem Book.Foreign.put {key : ListingKey} {new : Listing} (h : b.Foreign)
    (address : b'.address = b.address)
    (listings : ∀ k, b'.listing? k = if key == k then some new else b.listing? k)
    (foreign : (key.borrower == b.address) = false) : b'.Foreign := by
  intro k l hl
  rw [address]
  rw [listings] at hl
  split at hl
  · rename_i hk
    rw [← BEq.congr_left ((ListingKey.beq_iff _ _).1 hk).1]
    exact foreign
  · exact h k l hl

theorem Action.Posting.foreign (h : Posting b c e a cs ss ms as) (hf : b.Foreign)
    (stranger : ((e.sender : Key) == b.address) = false) (address : b'.address = b.address)
    (listings : ∀ k, b'.listing? k = (b.putAll cs).listing? k) : b'.Foreign := by
  have put := fun key old new k => Book.listing?_put_listing b key k old new
  cases h with
  | deposit | modify | withdraw | repay =>
      exact hf.put address (fun k => (listings k).trans (put _ _ _ k)) stranger
  | makeOffer _ stored | acceptLoan _ stored | claim stored | acceptOffer _ _ stored =>
      exact hf.put address (fun k => (listings k).trans (put _ _ _ k)) (hf _ _ stored)
  | cancel | refuse | recover | configure =>
      intro key l hl
      rw [address]
      exact hf key l ((listings key).symm.trans hl)

/-- A posting of someone else than the contract takes into custody what it pledges, and releases
what it does not pledge any longer. -/
theorem Action.Posting.handover (h : Posting b c e a cs ss ms as) (hf : b.Foreign)
    (stranger : ((e.sender : Key) == b.address) = false) (address : b'.address = b.address)
    (listings : ∀ k, b'.listing? k = (b.putAll cs).listing? k)
    (registry : b'.registry = (ss.map Message.send ++ ms).foldl Registry.carry b.registry)
    (honoured : b.registry.Honours (ss.map .send ++ ms)) : b.Handover b' := by
  have put := fun key old new k => Book.listing?_put_listing b key k old new
  have holds : ∀ u, b'.Holds u ↔
      ((ss.map Message.send ++ ms).foldl Registry.carry b.registry).Holds b.address u := by
    intro u
    rw [Book.Holds, address, registry]
  simp only [List.foldl_append, Registry.foldl_carry_sends] at holds
  cases h with
  | deposit fresh core =>
      refine .keep (Book.pledges_put_of_iff (fun k => (listings k).trans (put _ _ _ k)) ?_) holds
      intro assets
      constructor
      · rintro ⟨l, hl, -⟩
        cases fresh.symm.trans hl
      · rintro ⟨hs, -⟩
        cases (congrArg Listing.Core.state core).symm.trans hs
  | modify stored core | makeOffer _ stored _ _ core =>
      refine .keep (Book.pledges_put_of_iff (fun k => (listings k).trans (put _ _ _ k)) ?_) holds
      intro assets
      have hs := congrArg Listing.Core.state core
      have ha := congrArg Listing.Core.assets core
      dsimp only [Listing.core] at hs ha
      rw [Book.pledges_iff_of_stored stored, hs, ha]
  | withdraw stored published core =>
      refine .keep (Book.pledges_put_of_iff (fun k => (listings k).trans (put _ _ _ k)) ?_) holds
      intro assets
      rw [Book.pledges_iff_of_stored stored, published]
      constructor
      · rintro ⟨hs, -⟩
        cases hs
      · rintro ⟨hs, -⟩
        cases (congrArg Listing.Core.state core).symm.trans hs
  | acceptLoan _ stored published _ core _ _ _ _ _ custody =>
      simp only [List.foldl_append, Registry.foldl_carry_sends] at holds
      exact .lend stored published (congrArg Listing.Core.state core)
        (congrArg Listing.Core.assets core) (fun k => (listings k).trans (put _ _ _ k)) custody
        (hf _ _ stored) (Registry.honours_transfers honoured) holds
  | acceptOffer _ _ stored published core _ _ _ _ _ custody =>
      simp only [List.foldl_append, Registry.foldl_carry_sends] at holds
      exact .lend stored published (congrArg Listing.Core.state core)
        (congrArg Listing.Core.assets core) (fun k => (listings k).trans (put _ _ _ k)) custody
        (hf _ _ stored) (Registry.honours_transfers honoured) holds
  | cancel | recover =>
      simp only [Registry.foldl_carry_sends] at holds
      exact .keep (fun k as => by rw [Book.Pledges, listings]; exact Iff.rfl) holds
  | refuse | configure =>
      exact .keep (fun k as => by rw [Book.Pledges, listings]; exact Iff.rfl) holds
  | repay stored started core _ _ _ _ _ _ _ _ _ _ released =>
      simp only [List.foldl_append, Registry.foldl_carry_sends, Registry.foldl_carry_fees] at holds
      have settled := congrArg Listing.Core.state core
      exact .settle stored started (fun hs => by cases settled.symm.trans hs)
        (fun k => (listings k).trans (put _ _ _ k)) released stranger holds
  | claim stored started core _ _ mine released =>
      have settled := congrArg Listing.Core.state core
      exact .settle stored started (fun hs => by cases settled.symm.trans hs)
        (fun k => (listings k).trans (put _ _ _ k)) released
        ((BEq.congr_left mine).trans stranger) holds

end postings

/-! ### Custody over a run -/

/-- The contract computes no transaction of its own, and what happens to tokens outside of it
touches none that it holds and gives it none. -/
def Outside (b : Book) : Move → Prop
  | .compute e _ => ((e.sender : Key) == b.address) = false
  | .mint asset owner =>
    (owner == b.address) = false ∧ ∀ t ∈ tokensIn [asset], ¬ b.Holds t
  | .transfer token _ recipient => (recipient == b.address) = false ∧ ¬ b.Holds token
  | .execute _ | .advance _ _ | .fund _ _ _ => True

instance (b : Book) : ∀ m, Decidable (Outside b m)
  | .compute _ _ => inferInstanceAs (Decidable (_ = false))
  | .mint _ _ => inferInstanceAs (Decidable (_ ∧ _))
  | .transfer _ _ _ => inferInstanceAs (Decidable (_ ∧ _))
  | .execute _ | .advance _ _ | .fund _ _ _ => .isTrue trivial

theorem Book.Moved.custody {b b' : Book} {m : Move} (h : b.Moved Outside m b')
    (outside : Outside b m) (hb : b.Custody ∧ b.Foreign) : b'.Custody ∧ b'.Foreign := by
  obtain ⟨hb, hf⟩ := hb
  cases h with
  | still => exact ⟨hb, hf⟩
  | number | advance | fund => exact ⟨hb.keep (fun _ _ => Iff.rfl) fun _ => Iff.rfl, hf⟩
  | @post place p b₀ e a ss as source posting honoured covered =>
      have stranger : ((e.sender : Key) == b.address) = false := by
        rw [source.since.address]
        exact source.allowed
      have funds := source.computed.fundsIn
      rw [Pending.transfers, funds] at honoured
      have registry := b.registry_posted p
      rw [Pending.transfers, funds] at registry
      exact ⟨hb.handover (posting.handover hf stranger (b.address_posted p) (b.listing?_posted p)
        registry honoured), posting.foreign hf stranger (b.address_posted p) (b.listing?_posted p)⟩
  | mint =>
      obtain ⟨ho, ht⟩ := outside
      exact ⟨hb.keep (fun _ _ => Iff.rfl)
        (Registry.holds_assign_outside (ht _ List.mem_cons_self) ho), hf⟩
  | transfer =>
      obtain ⟨ho, ht⟩ := outside
      exact ⟨hb.keep (fun _ _ => Iff.rfl) (Registry.holds_assign_outside ht ho), hf⟩

/-- After every run from a new contract that holds no token, the contract holds exactly the tokens
of the started listings. -/
theorem custody_exact {s₀ s : Session} (fresh : s₀.IsFresh) (empty : ∀ t, ¬ s₀.book.Holds t)
    (run : Reaches Outside s₀ s) : s.book.Custody := by
  have unlisted : ∀ key, s₀.book.listing? key = none := by
    intro key
    rw [Book.listing?, fresh.listings]
    rfl
  have start : s₀.book.Custody ∧ s₀.book.Foreign := by
    refine ⟨⟨?_, ?_, ?_, fun t ht => absurd ht (empty t)⟩, ?_⟩
    · rintro key assets ⟨l, hl, -⟩
      cases (unlisted key).symm.trans hl
    · rintro key assets ⟨l, hl, -⟩
      cases (unlisted key).symm.trans hl
    · rintro key key' assets assets' ⟨l, hl, -⟩
      cases (unlisted key).symm.trans hl
    · intro key l hl
      cases (unlisted key).symm.trans hl
  exact (run.invariant (I := fun b => b.Custody ∧ b.Foreign) fresh start
    fun _ outside moved => moved.custody outside).1

theorem custody_exact_lent :
    Session.lent.book.Custody ∧ Session.lent.book.Holds Session.cat.token := by
  have empty : ∀ t, ¬ Session.opening.book.Holds t := by
    rintro t ⟨o, ho, -⟩
    cases ho
  have run : Reaches Outside Session.opening Session.lent :=
    Session.reaches_lent (by decide +kernel)
  exact ⟨custody_exact Session.isFresh_opening empty run, by decide +kernel⟩

end Pawnbook
