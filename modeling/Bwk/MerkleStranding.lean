import Bwk.MerkleRouter

/-!
# Stranded merkle fetches

A slot keeps a chain tick from asking for a proof again, so somebody must be
left to free it. What can be lost is a fetch that waits with a client when the
token moves on: the client's forwarder then returns without failing it.
-/

namespace Bwk

namespace MerkleClient

/-- The client's forwarder will still fail what the client leaves unanswered. -/
def Live (token : Nat) (client : MerkleClient) : Prop :=
  client.token = token ∧
    (client.forwarder = .forwarding ∨ client.forwarder = .checked)

/-- An answer to the fetch is about to be forwarded. -/
def Answers (claim : ClaimAt) (client : MerkleClient) : Prop :=
  client.forwarder = .forwarding ∧
    ∃ outcome ∈ client.answers, outcome.claim = claim

/-- The fetch waits with the live client, or is answered. -/
def Holds (token : Nat) (claim : ClaimAt) (client : MerkleClient) : Prop :=
  (client.Live token ∧ .getTxMerkle claim ∈ client.channel) ∨
    client.Answers claim

end MerkleClient

namespace MerkleNet

variable {Backend HeaderRows Raw : Type}

/-- An outcome of the fetch is queued towards the reconciler. -/
def Queued
    (wallet : Wallet Backend HeaderRows Raw)
    (claim : ClaimAt) : Prop :=
  ∃ outcome ∈ wallet.inbox, outcome.claim = claim

/--
The fetch of a slot is still to be sent, its outcome is queued, or it is
recorded and some client is the way `holds` says.
-/
def Tracked
    (holds : MerkleClient → Prop)
    (net : MerkleNet Backend HeaderRows Raw)
    (listener : ListenerId)
    (wallet : Wallet Backend HeaderRows Raw)
    (claim : ClaimAt) : Prop :=
  claim ∈ wallet.scan.fetches ∨ Queued wallet claim ∨
    ((claim, listener) ∈ net.pending ∧
      ((listener, claim) ∈ net.sending ∨
        ∃ client ∈ net.clients, holds client))

/--
No proof that is still open is kept from being asked for again by a slot
nobody is left to free.
-/
def NoneStranded (net : MerkleNet Backend HeaderRows Raw) : Prop :=
  ∀ listener wallet, net.wallets[listener]? = some wallet →
    ∀ txid height blockHash,
      wallet.scan.coins.txStore.inclusionOf txid =
        some (.confirmedUnverified height blockHash) →
      (⟨txid, height⟩ : ClaimAt) ∈ wallet.scan.coins.merkleInFlight →
      net.Tracked (MerkleClient.Holds net.writerToken ⟨txid, height⟩)
        listener wallet ⟨txid, height⟩

/-- Every slot's fetch is still to be sent, answered, or ended. -/
def NoneWaiting (net : MerkleNet Backend HeaderRows Raw) : Prop :=
  ∀ (listener : ListenerId) (wallet : Wallet Backend HeaderRows Raw),
    net.wallets[listener]? = some wallet →
    ∀ claim ∈ wallet.scan.coins.merkleInFlight,
      net.Tracked (MerkleClient.Answers claim) listener wallet claim

/-- The client that would be sent a fetch is not superseded. -/
def CurrentClient (net : MerkleNet Backend HeaderRows Raw) : Prop :=
  ∀ (index : Nat) (client : MerkleClient),
    net.merkleReq = some index → net.clients[index]? = some client →
    client.running = true → client.token = net.writerToken

/--
The token moves on while no fetch waits, and no fetch is sent to a superseded
client.
-/
def Clean
    (net : MerkleNet Backend HeaderRows Raw) :
    NetStep HeaderRows Raw → Prop
  | .act call =>
      (∃ rest, net.calls[call]? = some (.bump :: rest)) → net.NoneWaiting
  | .send _ _ => net.CurrentClient
  | _ => True

def AllClean
    [PersistenceBackend Backend Txid TxEntry]
    (btc : Bitcoin Raw)
    (crate : TxCrate)
    (hashPair : TxMerkleNode → TxMerkleNode → TxMerkleNode) :
    MerkleNet Backend HeaderRows Raw → List (NetStep HeaderRows Raw) → Prop
  | _, [] => True
  | net, next :: rest =>
      net.Clean next ∧
        AllClean btc crate hashPair (net.step btc crate hashPair next) rest

/-- Every slot is accounted for, and a running client is forwarded. -/
structure Accounted (net : MerkleNet Backend HeaderRows Raw) : Prop where
  served :
    ∀ client ∈ net.clients, client.running = true →
      client.forwarder = .forwarding
  slots :
    ∀ (listener : ListenerId) (wallet : Wallet Backend HeaderRows Raw),
      net.wallets[listener]? = some wallet →
      ∀ claim ∈ wallet.scan.coins.merkleInFlight,
        net.Tracked (MerkleClient.Holds net.writerToken claim) listener
          wallet claim

variable {clients : List MerkleClient} {index : Nat}
variable {change : MerkleClient → MerkleClient}

theorem exists_modify
    {before after : MerkleClient → Prop}
    (changed :
      ∀ client, clients[index]? = some client → before client →
        after (change client))
    (kept : ∀ client, before client → after client)
    (found : ∃ client ∈ clients, before client) :
    ∃ client ∈ clients.modify index change, after client := by
  obtain ⟨client, member, holds⟩ := found
  obtain ⟨place, there⟩ := List.mem_iff_getElem?.mp member
  by_cases same : index = place
  · subst same
    refine ⟨change client, List.mem_of_getElem? (i := index) ?_,
      changed client there holds⟩
    simp [there]
  · refine ⟨client, List.mem_of_getElem? (i := place) ?_,
      kept client holds⟩
    simp [same, there]

theorem forall_modify
    {inv : MerkleClient → Prop}
    (changed :
      ∀ client, clients[index]? = some client → inv client →
        inv (change client))
    (every : ∀ client ∈ clients, inv client) :
    ∀ client ∈ clients.modify index change, inv client := by
  intro client member
  obtain ⟨place, there⟩ := List.mem_iff_getElem?.mp member
  rw [List.getElem?_modify] at there
  obtain ⟨old, found, rfl⟩ := Option.map_eq_some_iff.mp there
  have kept := every old (List.mem_of_getElem? found)
  split
  · next here =>
      exact changed old (by rw [here]; exact found) kept
  · exact kept

variable {net : MerkleNet Backend HeaderRows Raw}

theorem withWallet_cases
    {listener other : ListenerId}
    {change :
      Wallet Backend HeaderRows Raw → Wallet Backend HeaderRows Raw}
    {wallet : Wallet Backend HeaderRows Raw}
    (found : (net.withWallet listener change).wallets[other]? = some wallet) :
    ∃ before, net.wallets[other]? = some before ∧
      ((other = listener ∧ wallet = change before) ∨
        (other ≠ listener ∧ wallet = before)) := by
  simp only [withWallet, List.getElem?_modify] at found
  obtain ⟨before, present, same⟩ := Option.map_eq_some_iff.mp found
  refine ⟨before, present, ?_⟩
  split at same
  · next here =>
      exact .inl ⟨here.symm, same.symm⟩
  · next elsewhere =>
      exact .inr ⟨Ne.symm elsewhere, same.symm⟩

variable {listener : ListenerId} {claim : ClaimAt} {outcome : MerkleOutcome}
variable {holds better : MerkleClient → Prop}

theorem Tracked.mono
    {after : MerkleNet Backend HeaderRows Raw}
    {wallet changed : Wallet Backend HeaderRows Raw}
    (tracked : net.Tracked holds listener wallet claim)
    (fetches : wallet.scan.fetches ⊆ changed.scan.fetches)
    (inbox : wallet.inbox ⊆ changed.inbox)
    (pending : net.pending ⊆ after.pending)
    (sending : net.sending ⊆ after.sending)
    (clients :
      (∃ client ∈ net.clients, holds client) →
        ∃ client ∈ after.clients, better client) :
    after.Tracked better listener changed claim := by
  rcases tracked with listed | ⟨outcome, queued, ends⟩ | ⟨asked, way⟩
  · exact .inl (fetches listed)
  · exact .inr (.inl ⟨outcome, inbox queued, ends⟩)
  · refine .inr (.inr ⟨pending asked, ?_⟩)
    rcases way with unsent | held
    · exact .inl (sending unsent)
    · exact .inr (clients held)

/-- Failing what waits queues an outcome for everything that is tracked. -/
theorem Tracked.failPending
    {wallet failed : Wallet Backend HeaderRows Raw}
    (tracked : net.Tracked holds listener wallet claim)
    (found : net.wallets[listener]? = some wallet)
    (after : net.failPending.wallets[listener]? = some failed) :
    net.failPending.Tracked better listener failed claim := by
  simp only [MerkleNet.failPending, List.getElem?_mapIdx, found,
    Option.map_some, Option.some.injEq] at after
  subst after
  rcases tracked with listed | ⟨outcome, queued, ends⟩ | ⟨asked, -⟩
  · exact .inl listed
  · exact .inr (.inl ⟨outcome, List.mem_append_left _ queued, ends⟩)
  · refine .inr (.inl ⟨.failed claim.txid claim.height, ?_, rfl⟩)
    refine List.mem_append_right _ (List.mem_map.mpr ⟨(claim, listener), ?_,
      rfl⟩)
    simp [asked]

theorem tracked_deliver
    {wallet told : Wallet Backend HeaderRows Raw}
    {holds : MerkleClient → Prop}
    (found : net.wallets[listener]? = some wallet)
    (after : (net.deliver outcome).wallets[listener]? = some told)
    (tracked :
      claim ∈ wallet.scan.fetches ∨ Queued wallet claim ∨
        ((claim, listener) ∈ net.pending ∧
          (claim = outcome.claim ∨ (listener, claim) ∈ net.sending ∨
            ∃ client ∈ net.clients, holds client))) :
    (net.deliver outcome).Tracked holds listener told claim := by
  simp only [deliver, List.getElem?_mapIdx, found, Option.map_some,
    Option.some.injEq] at after
  have scan : told.scan = wallet.scan := by
    rw [← after]
    split <;> rfl
  have inbox : wallet.inbox ⊆ told.inbox := by
    rw [← after]
    split
    · exact List.subset_append_left _ _
    · exact List.Subset.refl _
  rcases tracked with listed | ⟨earlier, queued, ends⟩ | ⟨asked, way⟩
  · exact .inl (by rw [scan]; exact listed)
  · exact .inr (.inl ⟨earlier, inbox queued, ends⟩)
  · by_cases mine : claim = outcome.claim
    · subst mine
      refine .inr (.inl ⟨outcome, ?_, rfl⟩)
      rw [← after, if_pos (by simp [asked])]
      exact List.mem_append_right _ (List.mem_singleton.mpr rfl)
    · refine .inr (.inr ⟨?_, way.resolve_left mine⟩)
      simp only [deliver, List.mem_filter, ne_eq, decide_not,
        Bool.not_eq_eq_eq_not, Bool.not_true, decide_eq_false_iff_not]
      exact ⟨asked, mine⟩

theorem scan_deliver
    {told : Wallet Backend HeaderRows Raw}
    (after : (net.deliver outcome).wallets[listener]? = some told) :
    ∃ wallet, net.wallets[listener]? = some wallet ∧
      told.scan = wallet.scan := by
  simp only [deliver, List.getElem?_mapIdx] at after
  obtain ⟨wallet, found, same⟩ := Option.map_eq_some_iff.mp after
  refine ⟨wallet, found, ?_⟩
  rw [← same]
  split <;> rfl

theorem scan_failPending
    {failed : Wallet Backend HeaderRows Raw}
    (after : net.failPending.wallets[listener]? = some failed) :
    ∃ wallet, net.wallets[listener]? = some wallet ∧
      failed.scan = wallet.scan := by
  simp only [failPending, List.getElem?_mapIdx] at after
  obtain ⟨wallet, found, same⟩ := Option.map_eq_some_iff.mp after
  refine ⟨wallet, found, ?_⟩
  rw [← same]

theorem Accounted.withWallet
    (accounted : net.Accounted)
    {change :
      Wallet Backend HeaderRows Raw → Wallet Backend HeaderRows Raw}
    (kept :
      ∀ wallet, net.wallets[listener]? = some wallet →
        ∀ claim ∈ (change wallet).scan.coins.merkleInFlight,
          net.Tracked (MerkleClient.Holds net.writerToken claim) listener
            (change wallet) claim) :
    (net.withWallet listener change).Accounted where
  served := accounted.served
  slots := by
    intro other wallet found claim held
    obtain ⟨before, present, ⟨rfl, rfl⟩ | ⟨-, rfl⟩⟩ :=
      withWallet_cases found
    · exact kept before present claim held
    · exact accounted.slots other wallet present claim held

theorem Accounted.withClient
    (accounted : net.Accounted)
    {index : Nat}
    (served :
      ∀ client, net.clients[index]? = some client →
        (client.running = true → client.forwarder = .forwarding) →
        ((change client).running = true →
          (change client).forwarder = .forwarding))
    (holds :
      ∀ client claim, net.clients[index]? = some client →
        client.Holds net.writerToken claim →
        (change client).Holds net.writerToken claim) :
    (net.withClient index change).Accounted where
  served := forall_modify served accounted.served
  slots := by
    intro listener wallet found claim held
    refine (accounted.slots listener wallet found claim held).mono
      (List.Subset.refl _) (List.Subset.refl _) (List.Subset.refl _)
      (List.Subset.refl _) ?_
    refine exists_modify ?_ (fun _ same => same)
    intro client there same
    exact holds client claim there same

theorem Accounted.withCalls
    (accounted : net.Accounted)
    (calls : List (List StoreAction)) :
    Accounted { net with calls := calls } :=
  ⟨accounted.served, accounted.slots⟩

theorem Accounted.withRequest
    (accounted : net.Accounted)
    (merkleReq : Option Nat) :
    Accounted { net with merkleReq := merkleReq } :=
  ⟨accounted.served, accounted.slots⟩

theorem Accounted.failPending
    (accounted : net.Accounted) :
    net.failPending.Accounted where
  served := accounted.served
  slots := by
    intro listener failed after claim held
    obtain ⟨wallet, found, same⟩ := scan_failPending after
    rw [same] at held
    exact (accounted.slots listener wallet found claim held).failPending
      found after

theorem accounted_record
    (accounted : net.Accounted)
    (listener : ListenerId)
    (claim : ClaimAt) :
    (net.record listener claim).Accounted := by
  unfold record
  split
  · next wallet found =>
      split
      · refine ⟨accounted.served, ?_⟩
        intro other changed after query held
        obtain ⟨before, present, here | ⟨elsewhere, rfl⟩⟩ :=
          withWallet_cases after
        · obtain ⟨rfl, rfl⟩ := here
          by_cases mine : query = claim
          · subst mine
            refine .inr (.inr ⟨?_, .inl ?_⟩)
            · exact List.mem_insert_self
            · exact List.mem_append_right _ (List.mem_singleton.mpr rfl)
          · rcases accounted.slots other before present query held with
              listed | queued | ⟨asked, way⟩
            · exact .inl ((List.mem_erase_of_ne mine).mpr listed)
            · exact .inr (.inl queued)
            · refine .inr (.inr ⟨List.mem_insert_of_mem asked, ?_⟩)
              exact way.imp_left (List.mem_append_left _)
        · refine (accounted.slots other changed present query held).mono
            (List.Subset.refl _) (List.Subset.refl _) ?_ ?_ id
          · exact fun _ asked => List.mem_insert_of_mem asked
          · exact List.subset_append_left _ _
      · exact accounted
  · exact accounted

theorem accounted_send
    (accounted : net.Accounted)
    (current : net.CurrentClient)
    (listener : ListenerId)
    (claim : ClaimAt) :
    (net.send listener claim).Accounted := by
  -- Without the sent fetch, everything else is tracked as before.
  have others :
      ∀ other wallet, net.wallets[other]? = some wallet →
        ∀ query ∈ wallet.scan.coins.merkleInFlight,
          query ∈ wallet.scan.fetches ∨ Queued wallet query ∨
            ((query, other) ∈ net.pending ∧
              (query = claim ∨
                (other, query) ∈ net.sending.erase (listener, claim) ∨
                ∃ client ∈ net.clients,
                  client.Holds net.writerToken query)) := by
    intro other wallet found query held
    rcases accounted.slots other wallet found query held with
      listed | queued | ⟨asked, unsent | waiting⟩
    · exact .inl listed
    · exact .inr (.inl queued)
    · refine .inr (.inr ⟨asked, ?_⟩)
      by_cases mine : query = claim
      · exact .inl mine
      · refine .inr (.inl ((List.mem_erase_of_ne ?_).mpr unsent))
        rintro ⟨⟩
        exact mine rfl
    · exact .inr (.inr ⟨asked, .inr (.inr waiting)⟩)
  have failed :
      Accounted
        (deliver
          { net with sending := net.sending.erase (listener, claim) }
          (.failed claim.txid claim.height)) := by
    refine ⟨accounted.served, ?_⟩
    intro other told after query held
    obtain ⟨wallet, found, same⟩ := scan_deliver after
    rw [same] at held
    exact tracked_deliver found after (others other wallet found query held)
  unfold send
  split
  · dsimp only
    split
    · next index inPlace =>
        split
        · next answering =>
            obtain ⟨client, there, runs⟩ :=
              (Option.any_eq_true _ _).mp answering
            refine ⟨forall_modify (fun _ _ serves => serves)
              accounted.served, ?_⟩
            intro other wallet found query held
            rcases others other wallet found query held with
              listed | queued | ⟨asked, rfl | unsent | waiting⟩
            · exact .inl listed
            · exact .inr (.inl queued)
            · refine .inr (.inr ⟨asked, .inr ?_⟩)
              refine ⟨_, List.mem_of_getElem? (i := index)
                (by simp [withClient, there]; rfl), .inl ⟨⟨?_, .inl ?_⟩, ?_⟩⟩
              · exact current index client inPlace there runs
              · exact accounted.served client (List.mem_of_getElem? there)
                  runs
              · exact List.mem_append_right _ (List.mem_singleton.mpr rfl)
            · exact .inr (.inr ⟨asked, .inl unsent⟩)
            · refine .inr (.inr ⟨asked, .inr ?_⟩)
              refine exists_modify ?_ (fun _ same => same) waiting
              rintro asked - (⟨live, inside⟩ | answers)
              · exact .inl ⟨live, List.mem_append_left _ inside⟩
              · exact .inr answers
        · exact failed
    · exact failed
  · exact accounted

theorem accounted_forward
    (accounted : net.Accounted)
    (index : Nat) :
    (net.forward index).Accounted := by
  unfold forward
  split
  · next token running channel outcome rest there =>
      refine ⟨forall_modify (fun _ _ serves => serves) accounted.served, ?_⟩
      intro other told after query held
      obtain ⟨wallet, found, same⟩ := scan_deliver after
      rw [same] at held
      refine tracked_deliver found after ?_
      rcases accounted.slots other wallet found query held with
        listed | queued | ⟨asked, unsent | waiting⟩
      · exact .inl listed
      · exact .inr (.inl queued)
      · exact .inr (.inr ⟨asked, .inr (.inl unsent)⟩)
      · refine .inr (.inr ⟨asked, ?_⟩)
        by_cases mine : query = outcome.claim
        · exact .inl mine
        · refine .inr (.inr (exists_modify ?_ (fun _ same => same) waiting))
          intro client here holds
          rw [there] at here
          cases here
          rcases holds with kept | ⟨forwards, answer, listed, ends⟩
          · exact .inl kept
          · refine .inr ⟨forwards, answer, ?_, ends⟩
            rcases List.mem_cons.mp listed with rfl | later
            · exact absurd ends.symm mine
            · exact later
  · exact accounted

theorem accounted_answer
    (accounted : net.Accounted)
    (index : Nat)
    (outcome : MerkleOutcome) :
    (net.answer index outcome).Accounted := by
  refine accounted.withClient ?_ ?_
  · intro client _ serves
    split
    · split
      · exact serves
      · exact serves
    · exact serves
  · intro client claim there holds
    split
    · next asked rest waiting =>
        split
        · next answered =>
            rcases holds with ⟨live, inside⟩ | ⟨forwards, answer, listed,
              ends⟩
            · rw [waiting] at inside
              rcases List.mem_cons.mp inside with first | later
              · cases first
                refine .inr ⟨accounted.served client
                  (List.mem_of_getElem? there) answered.1, outcome, ?_,
                  answered.2⟩
                exact List.mem_append_right _ (List.mem_singleton.mpr rfl)
              · exact .inl ⟨live, later⟩
            · exact .inr ⟨forwards, answer, List.mem_append_left _ listed,
                ends⟩
        · exact holds
    · exact holds

theorem accounted_drain
    (accounted : net.Accounted)
    (index : Nat) :
    (net.drain index).Accounted := by
  refine accounted.withClient ?_ ?_
  · intro client _ serves
    split
    · next ended =>
        intro runs
        rw [ended.2.1] at runs
        cases runs
    · exact serves
  · intro client claim _ holds
    split
    · next ended =>
        rcases holds with ⟨live, inside⟩ | ⟨-, answer, listed, -⟩
        · refine .inl ⟨⟨live.1, .inr ?_⟩, inside⟩
          simp [live.1]
        · rw [ended.2.2] at listed
          cases listed
    · exact holds

theorem accounted_failAll
    (accounted : net.Accounted)
    (index : Nat) :
    (net.failAll index).Accounted := by
  unfold failAll
  split
  · next ending =>
      obtain ⟨client, there, ended⟩ := (Option.any_eq_true _ _).mp ending
      refine ⟨forall_modify ?_ accounted.served, ?_⟩
      · intro other here serves runs
        rw [there] at here
        cases here
        have forwards := serves runs
        rw [of_decide_eq_true ended] at forwards
        cases forwards
      · intro listener failed after claim held
        obtain ⟨wallet, found, same⟩ := scan_failPending after
        rw [same] at held
        have tracked :
            (net.withClient index (fun ended =>
              { ended with forwarder := .failed })).Tracked (fun _ => True)
              listener wallet claim := by
          refine (accounted.slots listener wallet found claim held).mono
            (List.Subset.refl _) (List.Subset.refl _) (List.Subset.refl _)
            (List.Subset.refl _) ?_
          exact exists_modify (fun _ _ _ => trivial) (fun _ _ => trivial)
        exact tracked.failPending found after
  · exact accounted

theorem accounted_release
    (accounted : net.Accounted)
    (index : Nat) :
    (net.release index).Accounted := by
  unfold release
  split
  · next ending =>
      obtain ⟨client, there, ended⟩ := (Option.any_eq_true _ _).mp ending
      refine Accounted.withRequest (accounted.withClient ?_ ?_) none
      · intro other here serves runs
        rw [there] at here
        cases here
        have forwards := serves runs
        rw [of_decide_eq_true ended] at forwards
        cases forwards
      · intro other claim here holds
        rw [there] at here
        cases here
        rcases holds with ⟨⟨-, forwards | checked⟩, -⟩ | ⟨forwards, -⟩
        · rw [of_decide_eq_true ended] at forwards
          cases forwards
        · rw [of_decide_eq_true ended] at checked
          cases checked
        · rw [of_decide_eq_true ended] at forwards
          cases forwards
  · exact accounted

theorem accounted_takeRequest
    (accounted : net.Accounted) :
    net.takeRequest.Accounted := by
  unfold takeRequest
  split
  · refine Accounted.withRequest (accounted.withClient ?_ ?_) none
    · exact fun _ _ serves => serves
    · rintro client claim - (⟨live, inside⟩ | answers)
      · exact .inl ⟨live, List.mem_append_left _ inside⟩
      · exact .inr answers
  · exact accounted

theorem accounted_install
    (accounted : net.Accounted)
    (token : Nat) :
    (net.install token).Accounted where
  served := by
    intro client member runs
    rcases List.mem_append.mp member with old | fresh
    · exact accounted.served client old runs
    · rw [List.mem_singleton.mp fresh]
  slots := by
    intro listener wallet found claim held
    refine (accounted.slots listener wallet found claim held).mono
      (List.Subset.refl _) (List.Subset.refl _) (List.Subset.refl _)
      (List.Subset.refl _) ?_
    rintro ⟨client, member, holds⟩
    exact ⟨client, List.mem_append_left _ member, holds⟩

theorem accounted_bump
    (accounted : net.Accounted)
    (noneWaiting : net.NoneWaiting) :
    Accounted { net with writerToken := net.writerToken + 1 } where
  served := accounted.served
  slots := by
    intro listener wallet found claim held
    refine (noneWaiting listener wallet found claim held).mono
      (List.Subset.refl _) (List.Subset.refl _) (List.Subset.refl _)
      (List.Subset.refl _) ?_
    rintro ⟨client, member, answers⟩
    exact ⟨client, member, .inr answers⟩

theorem accounted_act
    (accounted : net.Accounted)
    (call : Nat)
    (clean :
      (∃ rest, net.calls[call]? = some (.bump :: rest)) →
        net.NoneWaiting) :
    (net.act call).Accounted := by
  unfold act
  split
  · next action rest under =>
      cases action with
      | failPending =>
          exact accounted.failPending.withCalls _
      | takeRequest =>
          exact (accounted_takeRequest accounted).withCalls _
      | bump =>
          exact (accounted_bump accounted (clean ⟨rest, under⟩)).withCalls _
      | load =>
          exact accounted.withCalls _
      | install token =>
          exact (accounted_install accounted token).withCalls _
  · exact accounted

section Runs

variable [PersistenceBackend Backend Txid TxEntry]
variable {btc : Bitcoin Raw} {crate : TxCrate}
variable {hashPair : TxMerkleNode → TxMerkleNode → TxMerkleNode}

theorem accounted_scan
    (accounted : net.Accounted)
    (listener : ListenerId)
    (next : ScanStep HeaderRows Raw) :
    (net.scan btc crate hashPair listener next).Accounted := by
  unfold scan
  split
  · exact accounted
  · refine accounted.withWallet ?_
    intro wallet found claim held
    obtain ⟨fetched, fetches, slots⟩ :=
      Reconciler.slotsFetched_step wallet.scan next
    rcases slots claim held with before | listed
    · refine (accounted.slots listener wallet found claim before).mono ?_
        (List.Subset.refl _) (List.Subset.refl _) (List.Subset.refl _) id
      rw [fetches]
      exact List.subset_append_left _ _
    · refine .inl ?_
      rw [fetches]
      exact List.mem_append_right _ listed

theorem accounted_receive
    (accounted : net.Accounted)
    (listener : ListenerId) :
    (net.receive btc crate hashPair listener).Accounted := by
  refine accounted.withWallet ?_
  intro wallet found claim
  split
  · next outcome rest queue =>
      intro held
      obtain ⟨fetched, fetches, slots⟩ :=
        Reconciler.slotsFetched_handleMerkleOutcome wallet.scan outcome
      rcases slots claim held with before | listed
      · obtain ⟨other, stillHeld⟩ := Finset.mem_erase.mp before
        rcases accounted.slots listener wallet found claim stillHeld with
          already | ⟨answer, queued, ends⟩ | recorded
        · refine .inl ?_
          rw [Reconciler.step, fetches]
          exact List.mem_append_left _ already
        · refine .inr (.inl ⟨answer, ?_, ends⟩)
          rw [queue] at queued
          rcases List.mem_cons.mp queued with rfl | later
          · exact absurd ends.symm other
          · exact later
        · exact .inr (.inr recorded)
      · refine .inl ?_
        rw [Reconciler.step, fetches]
        exact List.mem_append_right _ listed
  · exact accounted.slots listener wallet found claim

theorem accounted_step
    (accounted : net.Accounted)
    (next : NetStep HeaderRows Raw)
    (clean : net.Clean next) :
    (net.step btc crate hashPair next).Accounted := by
  cases next with
  | scan listener next =>
      exact accounted_scan accounted listener next
  | receive listener =>
      exact accounted_receive accounted listener
  | record listener claim =>
      exact accounted_record accounted listener claim
  | send listener claim =>
      exact accounted_send accounted clean listener claim
  | answer client outcome =>
      exact accounted_answer accounted client outcome
  | hangUp client =>
      exact accounted.withClient (fun _ _ _ runs => by cases runs)
        (fun _ _ _ holds => holds)
  | forward client =>
      exact accounted_forward accounted client
  | drain client =>
      exact accounted_drain accounted client
  | failAll client =>
      exact accounted_failAll accounted client
  | release client =>
      exact accounted_release accounted client
  | start | stop | restart =>
      exact accounted.withCalls _
  | act call =>
      exact accounted_act accounted call clean

theorem accounted_run
    (accounted : net.Accounted)
    (steps : List (NetStep HeaderRows Raw))
    (clean : net.AllClean btc crate hashPair steps) :
    (net.run btc crate hashPair steps).Accounted := by
  induction steps generalizing net with
  | nil =>
      exact accounted
  | cons next rest inductionHypothesis =>
      exact inductionHypothesis (accounted_step accounted next clean.1)
        clean.2

theorem AllClean.append_left
    {earlier later : List (NetStep HeaderRows Raw)}
    (clean : net.AllClean btc crate hashPair (earlier ++ later)) :
    net.AllClean btc crate hashPair earlier := by
  induction earlier generalizing net with
  | nil =>
      trivial
  | cons next rest inductionHypothesis =>
      exact ⟨clean.1, inductionHypothesis clean.2⟩

end Runs

/--
In every state a clean run of wallets, clients and restarts reaches, every
slot of an open proof has its fetch on the way: to be sent, waiting with the
live client, answered, or ended in the reconciler's inbox.
-/
theorem none_stranded_of_clean
    [PersistenceBackend Backend Txid TxEntry]
    (btc : Bitcoin Raw)
    (crate : TxCrate)
    (hashPair : TxMerkleNode → TxMerkleNode → TxMerkleNode)
    (wallets : List (Reconciler Backend HeaderRows Raw))
    (unheld : ∀ wallet ∈ wallets, wallet.coins.merkleInFlight = ∅)
    (earlier later : List (NetStep HeaderRows Raw))
    (clean :
      (opened wallets).AllClean btc crate hashPair (earlier ++ later)) :
    ((opened wallets).run btc crate hashPair earlier).NoneStranded := by
  have accounted : (opened wallets).Accounted := by
    refine ⟨nofun, ?_⟩
    intro listener wallet found claim held
    obtain ⟨scan, member, rfl⟩ :=
      List.mem_map.mp (List.mem_of_getElem? found)
    rw [unheld scan member] at held
    cases held
  have reached := accounted_run accounted earlier clean.append_left
  intro listener wallet found txid height blockHash _ held
  exact reached.slots listener wallet found ⟨txid, height⟩ held

/-- One wallet whose transaction is claimed at height one, with a client. -/
def sampleSteps : List (NetStep (RowBackend Nat Header) Header) :=
  [.start, .act 0, .act 0] ++ Reconciler.sampleClaim.map (.scan 0)

/-- A restart lets a fetch in between failing what waits and closing down. -/
def sampleSlip : List (NetStep (RowBackend Nat Header) Header) :=
  [.restart, .act 1, .record 0 ⟨7, 1⟩, .send 0 ⟨7, 1⟩, .act 1, .act 1,
    .hangUp 0, .drain 0, .act 1, .act 1]

def sampleNet
    (steps : List (NetStep (RowBackend Nat Header) Header)) :
    MerkleNet (RowBackend Txid TxEntry) (RowBackend Nat Header) Header :=
  (opened [Reconciler.sampleStart]).run Bitcoin.sample TxCrate.sample (· + ·)
    steps

/--
A fetch that slips in while a restart closes the old client down is lost with
it, and the chain ticks that follow do not ask again.
-/
theorem slipped_fetch_stranded :
    ¬ (sampleNet (sampleSteps ++ sampleSlip)).NoneStranded ∧
      (sampleNet
        (sampleSteps ++ sampleSlip ++ [.scan 0 .chainUpdate])).wallets.map
          (fun wallet => wallet.scan.fetches) = [[]] := by
  refine ⟨?_, by decide +kernel⟩
  intro noneStranded
  have state :
      ((sampleNet (sampleSteps ++ sampleSlip)).wallets[0]?).map
        (fun wallet =>
          (wallet.scan.coins.txStore.inclusionOf 7,
            decide
              ((⟨7, 1⟩ : ClaimAt) ∈ wallet.scan.coins.merkleInFlight),
            wallet.scan.fetches, wallet.inbox)) =
        some (some (.confirmedUnverified 1 100), true, [], []) := by
    decide +kernel
  have clients :
      (sampleNet (sampleSteps ++ sampleSlip)).clients =
        [⟨0, false, [.getTxMerkle ⟨7, 1⟩, .stop], [], .done⟩,
          ⟨1, true, [], [], .forwarding⟩] := by
    decide +kernel
  have sending : (sampleNet (sampleSteps ++ sampleSlip)).sending = [] := by
    decide +kernel
  obtain ⟨wallet, found, facts⟩ := Option.map_eq_some_iff.mp state
  simp only [Prod.mk.injEq, decide_eq_true_eq] at facts
  obtain ⟨unverified, held, fetches, inbox⟩ := facts
  rcases noneStranded 0 wallet found 7 1 100 unverified held with
    listed | ⟨outcome, queued, -⟩ | ⟨-, unsent | ⟨client, member, holds⟩⟩
  · rw [fetches] at listed
    cases listed
  · rw [inbox] at queued
    cases queued
  · rw [sending] at unsent
    cases unsent
  · rw [clients] at member
    simp only [List.mem_cons, List.not_mem_nil, or_false] at member
    rcases member with rfl | rfl <;>
      simp [MerkleClient.Holds, MerkleClient.Live,
        MerkleClient.Answers] at holds

/-- The sample run sends its fetch to the client it has. -/
def sampleFetch : List (NetStep (RowBackend Nat Header) Header) :=
  [.record 0 ⟨7, 1⟩, .send 0 ⟨7, 1⟩]

theorem sampleFetch_current :
    (sampleNet (sampleSteps ++ [.record 0 ⟨7, 1⟩])).CurrentClient := by
  have inPlace :
      (sampleNet (sampleSteps ++ [.record 0 ⟨7, 1⟩])).merkleReq =
        some 0 := by
    decide +kernel
  have clients :
      (sampleNet (sampleSteps ++ [.record 0 ⟨7, 1⟩])).clients =
        [⟨0, true, [], [], .forwarding⟩] := by
    decide +kernel
  have token :
      (sampleNet (sampleSteps ++ [.record 0 ⟨7, 1⟩])).writerToken = 0 := by
    decide +kernel
  intro index client placed there _
  rw [inPlace] at placed
  cases placed
  rw [clients] at there
  cases there
  exact token.symm

/-- The slot of the sample fetch waits with the live client. -/
theorem none_stranded_sample :
    (sampleNet (sampleSteps ++ sampleFetch)).wallets.map
        (fun wallet => wallet.scan.coins.merkleInFlight) = [{⟨7, 1⟩}] ∧
      (sampleNet (sampleSteps ++ sampleFetch)).NoneStranded := by
  refine ⟨by decide +kernel, ?_⟩
  have clean :
      (opened [Reconciler.sampleStart]).AllClean Bitcoin.sample
        TxCrate.sample (· + ·) ((sampleSteps ++ sampleFetch) ++ []) := by
    refine ⟨trivial, ?_, ?_, trivial, trivial, trivial, trivial,
      sampleFetch_current, trivial⟩
    · rintro ⟨rest, under⟩
      cases under
    · rintro ⟨rest, under⟩
      cases under
  refine none_stranded_of_clean Bitcoin.sample TxCrate.sample (· + ·)
    [Reconciler.sampleStart] ?_ (sampleSteps ++ sampleFetch) [] clean
  intro wallet member
  rw [List.mem_singleton.mp member]
  rfl

end MerkleNet

end Bwk
