import Pawnbook.Proofs.Session

/-! # Transfers rehearsed and carried out

The transfers of a pending transaction are run through twice: on a sheet, which decides whether
they are refused, and at the bank and the registry. Both accept the same lists: what the bank and
the registry take is covered and honoured (`deliverAll_ok`), which is all that the sheet asks for
(`transferRefusal?_eq_none_iff`), and what the sheet takes can be delivered
(`deliverAll_of_rehearsal`). On a list that both take, the sheet in front of the old bank and
registry shows the new ones (`Rehearsal.Foretells`). `Shadows.run` has the balances and the
holders; the owners are traced anew (`Rehearsal.owners_run`), as a token held by nobody may have
no owner or have nobody entered as one. -/

namespace Pawnbook

namespace Book
variable {b b' : Book}

/-- Brings attached coins in and delivers messages, in order. -/
def transferAll (b : Book) (ss : List BankSend) (ms : List Message) : Except Interrupted Book := do
  deliverAll (← b.bringInAll (ss.map .send)) ms

theorem transferAll_eq (ss : List BankSend) (ms : List Message) : b.transferAll ss ms =
    (b.deliverAll (ss.map .send) >>= fun b => b.deliverAll ms) := by
  unfold transferAll
  rw [bringInAll_sends]

theorem pay_ok {s t : Key} {c : Coin} (h : b.pay s t c = .ok b') :
    { b with bank := b.bank.move s t c } = b' ∧
      (b.bank.balance s c.denom).isBelow c.worth = false := by
  obtain ⟨bank, hb, h⟩ := bind_ok h
  obtain ⟨covered, hb⟩ := refuse_ok hb
  cases hb
  cases h
  exact ⟨rfl, Bool.eq_false_iff.2 covered⟩

theorem deliver_ok {m : Message} (proper : ∀ v, m ≠ .other v) (h : b.deliver m = .ok b') :
    b.carry m = b' ∧
      (∀ x, m.outlay? = some x → (b.bank.balance x.1 x.2.denom).isBelow x.2.worth = false) ∧
      ∀ t, m = .transfer t → (b.registry.holder t.nft.token == t.sender) = true := by
  cases m with
  | send s =>
      obtain ⟨rfl, covered⟩ := pay_ok h
      exact ⟨rfl, fun x hx => by cases hx; exact covered, nofun⟩
  | fee f =>
      obtain ⟨paid, hp, h⟩ := bind_ok h
      obtain ⟨rfl, covered⟩ := pay_ok hp
      cases h
      exact ⟨rfl, fun x hx => by cases hx; exact covered, nofun⟩
  | transfer t =>
      obtain ⟨registry, hr, h⟩ := bind_ok h
      obtain ⟨held, hr⟩ := require_ok hr
      cases hr
      cases h
      exact ⟨rfl, nofun, fun t' ht => by cases ht; exact held⟩
  | other v => exact absurd rfl (proper v)

theorem deliverAll_ok : ∀ {ms : List Message} {b : Book}, (∀ m ∈ ms, ∀ v, m ≠ .other v) →
    b.deliverAll ms = .ok b' →
    b.carryAll ms = b' ∧ b.bank.Covers ms ∧ b.registry.Honours ms
  | [], _, _, h => by
      cases h
      exact ⟨rfl, trivial, trivial⟩
  | m :: ms, b, proper, h => by
      rw [List.forall_mem_cons] at proper
      obtain ⟨b₁, h₁, h⟩ := bind_ok h
      obtain ⟨rfl, covered, honoured⟩ := deliver_ok proper.1 (mapError_ok h₁)
      obtain ⟨rfl, hc, hh⟩ := deliverAll_ok proper.2 h
      exact ⟨rfl, ⟨covered, hc⟩, honoured, hh⟩

theorem deliverAll_append (ms ns : List Message) : ∀ b : Book, b.deliverAll (ms ++ ns) =
    (b.deliverAll ms >>= fun b => b.deliverAll ns) := by
  induction ms with
  | nil => intro b; rfl
  | cons m ms ih =>
      intro b
      show (b.attempt (b.deliver m) >>= fun b => b.deliverAll (ms ++ ns)) =
        ((b.attempt (b.deliver m) >>= fun b => b.deliverAll ms) >>= fun b => b.deliverAll ns)
      simp only [ih]
      cases b.attempt (b.deliver m) <;> rfl

end Book

namespace Rehearsal
variable {r r' : Rehearsal} {bank : Bank} {registry₀ : Registry}

/-- The sheet, laid over a book as it was, shows every balance and every owner of the book as it
has become. -/
structure Foretells (r : Rehearsal) (b b' : Book) : Prop where
  balance : ∀ a d, b'.bank.balance a d =
    (r.balances.get? (.pair a d)).getD (b.bank.balance a d)
  owner : ∀ t, b'.registry.owner? t = (r.owners.get? t).or (b.registry.owner? t)

theorem owners_step {registry : Registry} {m : Message}
    (h : ∀ t, registry.owner? t = (r.owners.get? t).or (registry₀.owner? t))
    (hs : step bank registry₀ r m = .ok r') :
    ∀ t, (registry.carry m).owner? t = (r'.owners.get? t).or (registry₀.owner? t) := by
  have pay : ∀ {s t : Key} {c : Coin}, r.pay bank s t c = .ok r' → r'.owners = r.owners := by
    intro s t c hp
    obtain ⟨-, hp⟩ := refuse_ok hp
    cases hp
    rfl
  cases m with
  | send s => rw [pay hs]; exact h
  | fee f => rw [pay hs]; exact h
  | transfer u =>
      obtain ⟨-, hs⟩ := require_ok hs
      cases hs
      intro t
      show (registry.assign u.nft.token u.recipient).owner? t =
        ((r.owners.insert u.nft.token u.recipient).get? t).or _
      rw [Registry.owner?_assign, Table.get?_insert]
      split
      · rfl
      · exact h t
  | other v => cases hs

/-- A rehearsal writes the same owners on the sheet as its messages write in the registry. -/
theorem owners_run : ∀ {ms : List Message} {r r' : Rehearsal} {registry : Registry},
    (∀ t, registry.owner? t = (r.owners.get? t).or (registry₀.owner? t)) →
    run bank registry₀ r ms = .ok r' →
    ∀ t, (ms.foldl Registry.carry registry).owner? t =
      (r'.owners.get? t).or (registry₀.owner? t)
  | [], _, _, _, h, hr => by
      cases hr
      exact h
  | m :: ms, _, _, _, h, hr => by
      obtain ⟨r₁, h₁, hr⟩ := bind_ok hr
      have rest := owners_run (owners_step h h₁) hr
      exact rest

theorem foretells_of_run {b : Book} {ms : List Message}
    (hr : run b.bank b.registry {} ms = .ok r) : r.Foretells b (b.carryAll ms) where
  balance a d := (((shadows_start b.bank b.registry).run hr).2.balance a d).symm
  owner t := by
    rw [Book.carryAll_eq]
    exact owners_run (fun _ => rfl) hr t

end Rehearsal

/-- A list of transfers is refused exactly if carrying it out would fail, and the rehearsal of one
that is carried out shows what it leaves behind. -/
theorem Book.transfers_foretold (b : Book) (ss : List BankSend) (ms : List Message)
    (proper : ∀ m ∈ ms, ∀ v, m ≠ .other v) :
    (b.transferRefusal? (ss.map .send ++ ms) = none ↔ ∃ b', b.transferAll ss ms = .ok b') ∧
      ∀ b', b.transferAll ss ms = .ok b' →
        ∃ r, Rehearsal.run b.bank b.registry {} (ss.map .send ++ ms) = .ok r ∧
          r.Foretells b b' := by
  have all : ∀ m ∈ ss.map .send ++ ms, ∀ v, m ≠ .other v := by
    intro m hm v
    rcases List.mem_append.1 hm with hm | hm
    · obtain ⟨s, -, rfl⟩ := List.mem_map.1 hm
      exact nofun
    · exact proper m hm v
  have carried : ∀ {b'}, b.transferAll ss ms = .ok b' →
      b.carryAll (ss.map .send ++ ms) = b' ∧ b.bank.Covers (ss.map .send ++ ms) ∧
        b.registry.Honours (ss.map .send ++ ms) := by
    intro b' h
    rw [transferAll_eq, ← deliverAll_append] at h
    exact deliverAll_ok all h
  refine ⟨⟨?_, ?_⟩, ?_⟩
  · intro h
    obtain ⟨brought, delivered⟩ := deliverAll_of_rehearsal h
    refine ⟨b.carryAll (ss.map .send ++ ms), ?_⟩
    unfold transferAll
    rw [brought]
    exact delivered
  · rintro ⟨b', h⟩
    obtain ⟨-, covered, honoured⟩ := carried h
    exact transferRefusal?_eq_none_iff.2 ⟨covered, honoured, all⟩
  · intro b' h
    obtain ⟨rfl, covered, honoured⟩ := carried h
    obtain ⟨r, hr⟩ := (Rehearsal.shadows_start b.bank b.registry).run_ok_iff.2
      ⟨covered, honoured, all⟩
    exact ⟨r, hr, Rehearsal.foretells_of_run hr⟩

/-- Alice pays Bob. -/
def Session.gift : List BankSend := [⟨"alice", "bob", stars 300, by decide, by decide⟩]

/-- Bob spends what he was just paid, pays a fee to himself, and hands a token on. -/
def Session.relay : List Message :=
  [.send ⟨"bob", "carol", stars 200, by decide, by decide⟩,
   .fee ⟨"bob", "bob", [], FeeDeposit.fundsKind, stars 100, by decide⟩,
   .transfer ⟨cat, "contract", "bob"⟩,
   .transfer ⟨cat, "bob", "alice"⟩]

/-- Bob has nothing of his own, so what comes in counts before it goes out, on the sheet as at the
bank; the token has two owners on the way. -/
theorem relay_foretold :
    (∀ m ∈ Session.relay, ∀ v, m ≠ .other v) ∧
    Session.lent.book.transferRefusal? (Session.gift.map .send ++ Session.relay) = none ∧
    ∃ b', Session.lent.book.transferAll Session.gift Session.relay = .ok b' ∧
      (b'.bank.balance "bob" "stars").whole? = some 100 ∧
      b'.registry.owner? Session.cat.token = some (Key.text "alice") ∧
      ∃ r, Rehearsal.run Session.lent.book.bank Session.lent.book.registry {}
        (Session.gift.map .send ++ Session.relay) = .ok r ∧
        r.Foretells Session.lent.book b' := by
  have proper : ∀ m ∈ Session.relay, ∀ v, m ≠ .other v := by simp [Session.relay]
  have carried : (Session.lent.book.transferAll Session.gift Session.relay).toOption.any (fun b' =>
      (b'.bank.balance "bob" "stars").whole? = some 100 ∧
        b'.registry.owner? Session.cat.token = some (Key.text "alice")) = true := by
    decide +kernel
  obtain ⟨b', left, facts⟩ := (Option.any_eq_true _ _).1 carried
  obtain ⟨rest, token⟩ := of_decide_eq_true facts
  have left := toOption_eq_some_iff.1 left
  obtain ⟨same, foretold⟩ :=
    Session.lent.book.transfers_foretold Session.gift Session.relay proper
  exact ⟨proper, same.2 ⟨b', left⟩, b', left, rest, token, foretold b' left⟩

end Pawnbook
