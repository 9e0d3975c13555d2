import PubkySwap.CapClient

/-!
# What the client of signed contracts accepts

Over every history of calls, with replies chosen by an adversary, the client's three
maps stay backed by what happened: a quote in the map was verified, a commit in the
map was sent for such a quote and stands under the hash of its own body, and a commit
once sent is never forgotten (`Backed`).  Each is what one call keeps, and the
result reads the last reply against it.

The guarantee for status replies is bound to the commit.  A contract that is opened
for a quote this client has not committed to, as when a swap is recovered by its id
alone, leaves no commit behind, and a later query for that swap is then answered
without a contract (`unsigned_status_accepted`).
-/

namespace PubkySwap

open BitcoinScript (Bytes)

section

variable [Crypto] [CapCrypto]

/-! ## What is signed -/

/-- The quote is signed: over the hash of its terms between these parties. -/
def SignedQuote.Signed (signed : SignedQuote) (parties : Parties) (rfq : RfqConstraints) : Prop :=
  ∃ hash, PubkySwap.termsHash parties rfq signed.quote = .ok hash ∧
    Hex.encode hash = signed.termsHash ∧
    verifySignature signed.signer hash signed.signature = .ok ()

/-- The contract is signed: over the hash of its commit hash and its body. -/
def SignedContract.Signed (signed : SignedContract) : Prop :=
  ∃ hash, PubkySwap.contractHash signed.commitHash signed.contract = .ok hash ∧
    Hex.encode hash = signed.contractHash ∧
    verifySignature signed.signer hash signed.signature = .ok ()

theorem SignedQuote.verify_eq_ok {signed : SignedQuote} {parties : Parties}
    {rfq : RfqConstraints} :
    signed.verify parties rfq = .ok () ↔ signed.Signed parties rfq := by
  rw [SignedQuote.verify, bind_eq_ok_iff]
  simp only [ite_error_eq_ok, not_not]
  rfl

theorem SignedContract.verify_eq_ok {signed : SignedContract} :
    signed.verify = .ok () ↔ signed.Signed := by
  rw [SignedContract.verify, bind_eq_ok_iff]
  simp only [ite_error_eq_ok, not_not]
  rfl

/-- An opened contract is signed, and opening it fills in nothing but the
invoice. -/
theorem ContractReply.open_eq_ok {reply : ContractReply} {accept : SwapAccept}
    (h : reply.open = .ok accept) :
    reply.signed.Signed ∧
      accept = { reply.signed.contract.accept with invoice := accept.invoice } := by
  obtain ⟨hverify, h⟩ := check_bind_eq_ok.mp h
  refine ⟨SignedContract.verify_eq_ok.mp hverify, ?_⟩
  cases hhash : reply.signed.contract.invoiceBlobHash with
  | none =>
      cases hblob : reply.invoiceBlob with
      | none =>
          simp only [hhash, hblob] at h
          cases h
          rfl
      | some blob =>
          simp only [hhash, hblob] at h
          cases h
  | some hash =>
      cases hblob : reply.invoiceBlob with
      | none =>
          simp only [hhash, hblob] at h
          cases h
      | some blob =>
          simp only [hhash, hblob] at h
          obtain ⟨found, -, h⟩ := bind_eq_ok_iff.mp h
          split at h
          · obtain ⟨invoice, -, h⟩ := bind_eq_ok_iff.mp h
            cases h
            rfl
          · cases h

namespace CapClient

omit [Crypto] [CapCrypto] in
theorem checkSigner_eq_ok {client : CapClient} {signer : String} :
    client.checkSigner signer = .ok () ↔ client.allows signer = true := by
  rw [checkSigner]
  split
  · exact iff_of_true rfl ‹_›
  · exact iff_of_false nofun ‹_›

/-! ## What one reply can do -/

theorem replyQuote_eq_ok {client client' : CapClient} {request : QuoteRequest}
    {signed : SignedQuote} {message : SwapMessage}
    (h : client.replyQuote request signed = .ok (message, client')) :
    client.allows signed.signer = true ∧ signed.Signed client.parties request.constraints ∧
      message = .quote signed.toQuote ∧
      client' = { client with
        quotes := client.quotes.insert signed.quote.quoteId ⟨request.rfq, signed⟩ } := by
  obtain ⟨hsigner, h⟩ := check_bind_eq_ok.mp h
  obtain ⟨hverify, h⟩ := check_bind_eq_ok.mp h
  cases h
  exact ⟨checkSigner_eq_ok.mp hsigner, SignedQuote.verify_eq_ok.mp hverify, rfl, rfl⟩

theorem replyContract_eq_ok {client client' : CapClient} {request : SwapRequest}
    {contract : ContractReply} {message : SwapMessage}
    (h : client.replyContract request contract = .ok (message, client')) :
    ∃ proof hash accept, client.allows contract.signed.signer = true ∧
      client.quotes.lookup request.quoteId = some proof ∧
      commitHash proof.signed.termsHash (.fromRequest request) = .ok hash ∧
      contract.signed.commitHash = Hex.encode hash ∧ contract.open = .ok accept ∧
      accept.quoteId = request.quoteId ∧ message = .swapAccept accept ∧
      client' = { client with swaps := client.swaps.insert accept.swapId accept.quoteId } := by
  obtain ⟨hsigner, h⟩ := check_bind_eq_ok.mp h
  obtain ⟨proof, hproof, h⟩ := bind_eq_ok_iff.mp h
  obtain ⟨hash, hhash, h⟩ := bind_eq_ok_iff.mp h
  obtain ⟨hcommit, h⟩ := ite_error_eq_ok.mp h
  obtain ⟨accept, haccept, h⟩ := bind_eq_ok_iff.mp h
  obtain ⟨hquote, h⟩ := ite_error_eq_ok.mp h
  cases h
  exact ⟨proof, hash, accept, checkSigner_eq_ok.mp hsigner, okOr_eq_ok.mp hproof, hhash,
    (not_not.mp hcommit).symm, haccept, not_not.mp hquote, rfl, rfl⟩

theorem openRecovered_eq_ok {client client' : CapClient} {snapshot : SwapStatusSnapshot}
    {contract : ContractReply} {message : SwapMessage}
    (h : client.openRecovered snapshot contract = .ok (message, client')) :
    ∃ accept, client.allows contract.signed.signer = true ∧ contract.open = .ok accept ∧
      accept.quoteId = snapshot.accept.quoteId ∧
      message = .swapStatusSnapshot { snapshot with accept := accept } ∧
      client' = { client with
        swaps := client.swaps.insert accept.swapId snapshot.accept.quoteId } := by
  obtain ⟨hsigner, h⟩ := check_bind_eq_ok.mp h
  obtain ⟨accept, haccept, h⟩ := bind_eq_ok_iff.mp h
  obtain ⟨hsame, h⟩ := ite_error_eq_ok.mp h
  cases h
  refine ⟨accept, checkSigner_eq_ok.mp hsigner, haccept, ?_, rfl, rfl⟩
  rw [(ContractReply.open_eq_ok haccept).2, ← not_not.mp hsame]

/-- A status that is accepted is about the quote that was asked about.  It comes with
a contract that is opened, or for a quote without a commit. -/
theorem replyStatus_eq_ok {client client' : CapClient} {request : SwapStatusRequest}
    {status : Status} {message : SwapMessage}
    (h : client.replyStatus request status = .ok (message, client')) :
    ∃ snapshot, status.snapshot = some snapshot ∧
      (∀ quoteId, client.asked request = some quoteId → snapshot.accept.quoteId = quoteId) ∧
      ((status.contract = none ∧ client.commits.lookup snapshot.accept.quoteId = none ∧
          message = .swapStatusSnapshot snapshot ∧ client' = client) ∨
        ∃ contract, status.contract = some contract ∧
          (∀ hash commit, client.commits.lookup snapshot.accept.quoteId = some (hash, commit) →
            contract.signed.commitHash = hash) ∧
          client.openRecovered snapshot contract = .ok (message, client')) := by
  obtain ⟨snapshot, hsnapshot, h⟩ := bind_eq_ok_iff.mp h
  obtain ⟨-, h⟩ := ite_error_eq_ok.mp h
  obtain ⟨hasked, h⟩ := ite_error_eq_ok.mp h
  refine ⟨snapshot, okOr_eq_ok.mp hsnapshot, ?_, ?_⟩
  · intro quoteId hquote
    rw [hquote, Option.any_some, decide_eq_true_iff, not_not] at hasked
    exact hasked.symm
  cases hcontract : status.contract with
  | none =>
      rw [hcontract] at h
      cases hcommit : client.commits.lookup snapshot.accept.quoteId with
      | none =>
          rw [hcommit] at h
          cases h
          exact Or.inl ⟨rfl, rfl, rfl, rfl⟩
      | some entry =>
          rw [hcommit] at h
          cases h
  | some contract =>
      rw [hcontract] at h
      refine Or.inr ⟨contract, rfl, ?_⟩
      cases hcommit : client.commits.lookup snapshot.accept.quoteId with
      | none =>
          rw [hcommit] at h
          refine ⟨?_, h⟩
          intro _ _ hnone
          cases hnone
      | some entry =>
          rw [hcommit] at h
          obtain ⟨hash, commit⟩ := entry
          obtain ⟨hhash, h⟩ := ite_error_eq_ok.mp h
          refine ⟨?_, h⟩
          rintro _ _ ⟨⟩
          exact not_not.mp hhash

/-! ## What one call can do -/

/-- A call verifies a quote, sends a commit, binds a swap or allows a signer; else it
leaves the client as it was. -/
theorem step_cases (client : CapClient) (call : Call) :
    client.step call = client ∨
    (∃ request signed, call = .reply (.quoteRequest request) (.quote signed) ∧
      client.allows signed.signer = true ∧ signed.Signed client.parties request.constraints ∧
      client.step call = { client with
        quotes := client.quotes.insert signed.quote.quoteId ⟨request.rfq, signed⟩ }) ∨
    (∃ request proof hash commit, call = .request (.swapRequest request) ∧
      client.quotes.lookup request.quoteId = some proof ∧
      commit = { termsHash := proof.signed.termsHash, commit := .fromRequest request,
                 quote := some proof } ∧
      commitHash commit.termsHash commit.commit = .ok hash ∧
      client.step call = { client with
        commits := client.commits.insert request.quoteId (Hex.encode hash, commit) }) ∨
    (∃ swaps, client.step call = { client with swaps := swaps }) ∨
    (∃ signer, client.step call = client.allowSigner signer) := by
  cases call with
  | request message =>
      cases message with
      | swapRequest request =>
          simp only [step, CapClient.request]
          cases hproof : client.quotes.lookup request.quoteId with
          | none => exact Or.inl rfl
          | some proof =>
              dsimp only
              cases hhash : commitHash proof.signed.termsHash (.fromRequest request) with
              | error e => exact Or.inl rfl
              | ok hash =>
                  exact Or.inr (Or.inr (Or.inl ⟨request, proof, hash, _, rfl, hproof, rfl, hhash,
                    rfl⟩))
      | _ => exact Or.inl rfl
  | reply request message =>
      rw [step]
      cases hreply : client.reply request message with
      | error e => exact Or.inl rfl
      | ok result =>
          obtain ⟨answer, client'⟩ := result
          show client' = client ∨ _
          unfold reply at hreply
          split at hreply
          · cases hreply
            exact Or.inl rfl
          · obtain ⟨hallows, hsigned, -, rfl⟩ := replyQuote_eq_ok hreply
            exact Or.inr (Or.inl ⟨_, _, rfl, hallows, hsigned, rfl⟩)
          · obtain ⟨_, _, _, -, -, -, -, -, -, -, rfl⟩ := replyContract_eq_ok hreply
            exact Or.inr (Or.inr (Or.inr (Or.inl ⟨_, rfl⟩)))
          · split at hreply
            · cases hreply
              exact Or.inl rfl
            · cases hreply
          · obtain ⟨_, -, -, h⟩ := replyStatus_eq_ok hreply
            rcases h with ⟨-, -, -, rfl⟩ | ⟨_, -, -, h⟩
            · exact Or.inl rfl
            · obtain ⟨_, -, -, -, -, rfl⟩ := openRecovered_eq_ok h
              exact Or.inr (Or.inr (Or.inr (Or.inl ⟨_, rfl⟩)))
          · cases hreply
  | allowSigner signer => exact Or.inr (Or.inr (Or.inr (Or.inr ⟨signer, rfl⟩)))

omit [Crypto] [CapCrypto] in
theorem allows_allowSigner {client : CapClient} {signer other : String}
    (h : client.allows signer = true) : (client.allowSigner other).allows signer = true := by
  rw [allowSigner]
  split
  · exact h
  · unfold allows at h ⊢
    cases hexpected : client.expectedSigner with
    | none => rfl
    | some expected =>
        rw [hexpected] at h
        simp only [Bool.or_eq_true, List.any_append] at h ⊢
        exact h.imp_right Or.inl

omit [Crypto] [CapCrypto] in
theorem parties_allowSigner (client : CapClient) (signer : String) :
    (client.allowSigner signer).parties = client.parties ∧
      (client.allowSigner signer).quotes = client.quotes ∧
      (client.allowSigner signer).commits = client.commits := by
  rw [allowSigner]
  split <;> exact ⟨rfl, rfl, rfl⟩

/-- A key once allowed stays allowed. -/
theorem allows_step {client : CapClient} {signer : String} (call : Call)
    (h : client.allows signer = true) : (client.step call).allows signer = true := by
  rcases step_cases client call with heq | ⟨_, _, -, -, -, heq⟩ | ⟨_, _, _, _, -, -, -, -, heq⟩ |
    ⟨_, heq⟩ | ⟨_, heq⟩
  · rw [heq]
    exact h
  · rw [heq]
    exact h
  · rw [heq]
    exact h
  · rw [heq]
    exact h
  · rw [heq]
    exact allows_allowSigner h

/-- A commit once sent is not forgotten. -/
theorem commits_step {client : CapClient} {quoteId : Uuid} (call : Call)
    (h : ∃ entry, client.commits.lookup quoteId = some entry) :
    ∃ entry, (client.step call).commits.lookup quoteId = some entry := by
  rcases step_cases client call with heq | ⟨_, _, -, -, -, heq⟩ |
    ⟨request, _, hash, commit, -, -, -, -, heq⟩ | ⟨_, heq⟩ | ⟨_, heq⟩
  · rw [heq]
    exact h
  · rw [heq]
    exact h
  · rw [heq]
    by_cases hquote : quoteId = request.quoteId
    · rw [hquote]
      exact ⟨_, AList.lookup_insert _⟩
    · rw [AList.lookup_insert_ne hquote]
      exact h
  · rw [heq]
    exact h
  · rw [heq, (parties_allowSigner client _).2.2]
    exact h

/-! ## What the maps stand for -/

/-- The client verified this quote in the course of a history: a reply carried it, its
terms are between these parties and answer what was asked, and its signer is one
the client allows. -/
def Verified (parties : Parties) (calls : List Call) (client : CapClient) (signed : SignedQuote) :
    Prop :=
  client.allows signed.signer = true ∧ ∃ request,
    Call.reply (.quoteRequest request) (.quote signed) ∈ calls ∧
      signed.Signed parties request.constraints

/-- The client committed to this quote in the course of a history: a request was sent
as a commit. -/
def Committed (start : CapClient) (calls : List Call) (quoteId : Uuid) : Prop :=
  ∃ before after request commit, calls = before ++ .request (.swapRequest request) :: after ∧
    request.quoteId = quoteId ∧
    ((start.run before).request (.swapRequest request)).1 = some (.commit commit)

/-- A stored commit and its hash: of a request that was made, for a quote that was
verified. -/
def Sent (parties : Parties) (calls : List Call) (client : CapClient) (quoteId : Uuid)
    (hash : String) (commit : Commit) : Prop :=
  ∃ request signed digest, Call.request (.swapRequest request) ∈ calls ∧
    request.quoteId = quoteId ∧ commit.commit = .fromRequest request ∧
    Verified parties calls client signed ∧ signed.quote.quoteId = quoteId ∧
    commit.termsHash = signed.termsHash ∧
    commitHash commit.termsHash commit.commit = .ok digest ∧ hash = Hex.encode digest

/-- The client's maps say what happened. -/
structure Backed (start : CapClient) (calls : List Call) (client : CapClient) : Prop where
  parties : client.parties = start.parties
  quotes : ∀ quoteId proof, client.quotes.lookup quoteId = some proof →
    proof.signed.quote.quoteId = quoteId ∧ Verified start.parties calls client proof.signed
  commits : ∀ quoteId hash commit, client.commits.lookup quoteId = some (hash, commit) →
    Sent start.parties calls client quoteId hash commit
  committed : ∀ quoteId, Committed start calls quoteId →
    ∃ entry, client.commits.lookup quoteId = some entry

theorem Verified.step {parties : Parties} {calls : List Call} {client : CapClient}
    {signed : SignedQuote} (h : Verified parties calls client signed) (call : Call) :
    Verified parties (calls ++ [call]) (client.step call) signed := by
  obtain ⟨hallows, request, hmem, hsigned⟩ := h
  exact ⟨allows_step call hallows, request, List.mem_append_left _ hmem, hsigned⟩

theorem Sent.step {parties : Parties} {calls : List Call} {client : CapClient} {quoteId : Uuid}
    {hash : String} {commit : Commit} (h : Sent parties calls client quoteId hash commit)
    (call : Call) : Sent parties (calls ++ [call]) (client.step call) quoteId hash commit := by
  obtain ⟨request, signed, digest, hmem, hquote, hbody, hverified, hrest⟩ := h
  exact ⟨request, signed, digest, List.mem_append_left _ hmem, hquote, hbody,
    hverified.step call, hrest⟩

/-- What is sent as a commit is stored. -/
theorem request_commit {client : CapClient} {request : SwapRequest} {commit : Commit}
    (h : (client.request (.swapRequest request)).1 = some (.commit commit)) :
    ∃ entry, (client.step (.request (.swapRequest request))).commits.lookup request.quoteId =
      some entry := by
  simp only [CapClient.step, CapClient.request] at h ⊢
  cases hproof : client.quotes.lookup request.quoteId with
  | none => rw [hproof] at h; cases h
  | some proof =>
      simp only [hproof] at h ⊢
      cases hhash : commitHash proof.signed.termsHash (.fromRequest request) with
      | error e => rw [hhash] at h; cases h
      | ok hash => exact ⟨_, AList.lookup_insert _⟩

theorem Committed.of_snoc {start : CapClient} {calls : List Call} {call : Call} {quoteId : Uuid}
    (h : Committed start (calls ++ [call]) quoteId) :
    Committed start calls quoteId ∨
      ∃ entry, ((start.run calls).step call).commits.lookup quoteId = some entry := by
  obtain ⟨before, after, request, commit, hcalls, hquote, hsent⟩ := h
  rcases List.eq_nil_or_concat after with rfl | ⟨after', last, rfl⟩
  · obtain ⟨rfl, hcall⟩ := List.append_inj' hcalls rfl
    obtain ⟨rfl, -⟩ := List.cons.inj hcall
    right
    rw [← hquote]
    exact request_commit hsent
  · rw [List.concat_eq_append, ← List.cons_append, ← List.append_assoc] at hcalls
    obtain ⟨rfl, -⟩ := List.append_inj' hcalls rfl
    exact Or.inl ⟨before, after', request, commit, rfl, hquote, hsent⟩

section

variable {start : CapClient} {calls : List Call} (h : Backed start calls (start.run calls))
  (call : Call)

include h

theorem Backed.committed_step (quoteId : Uuid)
    (hquote : Committed start (calls ++ [call]) quoteId) :
    ∃ entry, ((start.run calls).step call).commits.lookup quoteId = some entry := by
  rcases hquote.of_snoc with hbefore | hnow
  · exact commits_step call (h.committed quoteId hbefore)
  · exact hnow

theorem Backed.quotes_step (quoteId : Uuid) (proof : QuoteProof)
    (hproof : (start.run calls).quotes.lookup quoteId = some proof) :
    proof.signed.quote.quoteId = quoteId ∧
      Verified start.parties (calls ++ [call]) ((start.run calls).step call) proof.signed := by
  obtain ⟨hid, hverified⟩ := h.quotes quoteId proof hproof
  exact ⟨hid, hverified.step call⟩

theorem Backed.commits_step (quoteId : Uuid) (hash : String) (commit : Commit)
    (hentry : (start.run calls).commits.lookup quoteId = some (hash, commit)) :
    Sent start.parties (calls ++ [call]) ((start.run calls).step call) quoteId hash commit :=
  (h.commits quoteId hash commit hentry).step call

/-- A call that touches neither quotes nor commits. -/
theorem Backed.unchanged
    (hparties : ((start.run calls).step call).parties = (start.run calls).parties)
    (hquotes : ((start.run calls).step call).quotes = (start.run calls).quotes)
    (hcommits : ((start.run calls).step call).commits = (start.run calls).commits) :
    Backed start (calls ++ [call]) ((start.run calls).step call) where
  parties := hparties.trans h.parties
  quotes quoteId proof hproof := h.quotes_step call quoteId proof (hquotes ▸ hproof)
  commits quoteId hash commit hentry := h.commits_step call quoteId hash commit (hcommits ▸ hentry)
  committed := h.committed_step call

theorem Backed.step : Backed start (calls ++ [call]) ((start.run calls).step call) := by
  have hmem : call ∈ calls ++ [call] := List.mem_append_right _ (List.mem_singleton_self _)
  rcases step_cases (start.run calls) call with heq |
    ⟨request, signed, hcall, hallows, hsigned, heq⟩ |
    ⟨request, proof, digest, commit, hcall, hproof, hcommit, hdigest, heq⟩ | ⟨_, heq⟩ |
    ⟨signer, heq⟩
  · apply h.unchanged call <;> rw [heq]
  · refine ⟨by rw [heq]; exact h.parties, ?_, ?_, h.committed_step call⟩
    · intro quoteId proof hlookup
      by_cases hquote : quoteId = signed.quote.quoteId
      · rw [heq, hquote, AList.lookup_insert] at hlookup
        cases hlookup
        refine ⟨hquote.symm, allows_step call hallows, request, ?_, h.parties ▸ hsigned⟩
        exact hcall ▸ hmem
      · rw [heq, AList.lookup_insert_ne hquote] at hlookup
        exact h.quotes_step call quoteId proof hlookup
    · intro quoteId hash commit hlookup
      rw [heq] at hlookup
      exact h.commits_step call quoteId hash commit hlookup
  · refine ⟨by rw [heq]; exact h.parties, ?_, ?_, h.committed_step call⟩
    · intro quoteId proof hlookup
      rw [heq] at hlookup
      exact h.quotes_step call quoteId proof hlookup
    · intro quoteId hash commit' hlookup
      by_cases hquote : quoteId = request.quoteId
      · rw [heq, hquote, AList.lookup_insert] at hlookup
        cases hlookup
        obtain ⟨hid, hverified⟩ := h.quotes_step call _ proof hproof
        exact ⟨request, proof.signed, digest, hcall ▸ hmem, hquote.symm, by rw [hcommit], hverified,
          hid.trans hquote.symm, by rw [hcommit], hdigest, rfl⟩
      · rw [heq, AList.lookup_insert_ne hquote] at hlookup
        exact h.commits_step call quoteId hash commit' hlookup
  · apply h.unchanged call <;> rw [heq]
  · obtain ⟨hparties, hquotes, hcommits⟩ := parties_allowSigner (start.run calls) signer
    apply h.unchanged call <;> rw [heq] <;> assumption

end

/-- **Whatever was asked and answered, the maps say what happened.** -/
theorem backed_run (expectedSigner : Option Bytes32) (parties : Parties) (calls : List Call) :
    Backed (new expectedSigner parties) calls ((new expectedSigner parties).run calls) := by
  induction calls using List.reverseRecOn with
  | nil =>
      refine ⟨rfl, ?_, ?_, ?_⟩
      · intro quoteId proof h
        cases h
      · intro quoteId hash commit h
        cases h
      · rintro quoteId ⟨before, after, request, commit, hcalls, -⟩
        cases List.append_ne_nil_of_right_ne_nil before (List.cons_ne_nil _ after) hcalls.symm
  | append_singleton calls call ih =>
      rw [run_append]
      exact ih.step call

/-! ## What is accepted -/

/-- The client of a provider, after a history of calls. -/
def after (expectedSigner : Option Bytes32) (parties : Parties) (calls : List Call) : CapClient :=
  (new expectedSigner parties).run calls

/-- An acceptance comes from a contract in answer to this request. -/
theorem reply_swapAccept {client client' : CapClient} {request : SwapRequest} {message : CapMessage}
    {accept : SwapAccept}
    (h : client.reply (.swapRequest request) message = .ok (.swapAccept accept, client')) :
    ∃ contract, message = .contract contract ∧
      client.replyContract request contract = .ok (.swapAccept accept, client') := by
  cases message with
  | contract contract => exact ⟨contract, rfl, h⟩
  | status status =>
      simp only [reply] at h
      split at h <;> cases h
  | _ => cases h

theorem reply_swapStatusSnapshot {client client' : CapClient} {request : SwapStatusRequest}
    {message : CapMessage} {snapshot : SwapStatusSnapshot}
    (h : client.reply (.swapStatusRequest request) message =
      .ok (.swapStatusSnapshot snapshot, client')) :
    ∃ status, message = .status status ∧
      client.replyStatus request status = .ok (.swapStatusSnapshot snapshot, client') := by
  cases message with
  | status status => exact ⟨status, rfl, h⟩
  | _ => cases h

/-- **The client accepts only what was signed for its own commit.**  After every history
of calls, with replies of any content: an acceptance comes from a contract that an
allowed key signed over the commit hash of the very request, under the terms of a
quote with the same id which this client verified.  A status that is accepted for a
quote committed to, asked about by its id or through the swap a contract last bound to
it, carries the acceptance of a contract that an allowed key signed over the commit
stored for that quote. -/
theorem accepts_only_signed (expectedSigner : Option Bytes32) (parties : Parties)
    (calls : List Call) :
    (∀ request message accept client',
      (after expectedSigner parties calls).reply (.swapRequest request) message =
        .ok (.swapAccept accept, client') →
      ∃ contract signed digest, message = .contract contract ∧
        (after expectedSigner parties calls).allows contract.signed.signer = true ∧
        contract.signed.Signed ∧ contract.open = .ok accept ∧ accept.quoteId = request.quoteId ∧
        Verified parties calls (after expectedSigner parties calls) signed ∧
        signed.quote.quoteId = request.quoteId ∧
        commitHash signed.termsHash (.fromRequest request) = .ok digest ∧
        contract.signed.commitHash = Hex.encode digest) ∧
    (∀ request message snapshot client' quoteId,
      (after expectedSigner parties calls).reply (.swapStatusRequest request) message =
        .ok (.swapStatusSnapshot snapshot, client') →
      (request.quoteId = some quoteId ∨ request.quoteId = none ∧ ∃ swapId,
        request.swapId = some swapId ∧
        (after expectedSigner parties calls).swaps.lookup swapId = some quoteId) →
      Committed (new expectedSigner parties) calls quoteId →
      ∃ status contract hash commit, message = .status status ∧
        status.contract = some contract ∧
        (after expectedSigner parties calls).allows contract.signed.signer = true ∧
        contract.signed.Signed ∧ contract.open = .ok snapshot.accept ∧
        snapshot.accept.quoteId = quoteId ∧
        (after expectedSigner parties calls).commits.lookup quoteId = some (hash, commit) ∧
        contract.signed.commitHash = hash ∧
        Sent parties calls (after expectedSigner parties calls) quoteId hash commit) := by
  have hbacked := backed_run expectedSigner parties calls
  constructor
  -- an acceptance: the quote it is for was verified when it came in
  · intro request message accept client' h
    obtain ⟨contract, rfl, h⟩ := reply_swapAccept h
    obtain ⟨proof, digest, opened, hsigner, hproof, hdigest, hcommit, hopen, hquote, heq, -⟩ :=
      replyContract_eq_ok h
    cases heq
    obtain ⟨hid, hverified⟩ := hbacked.quotes _ proof hproof
    exact ⟨contract, proof.signed, digest, rfl, hsigner, (ContractReply.open_eq_ok hopen).1, hopen,
      hquote, hverified, hid, hdigest, hcommit⟩
  · intro request message snapshot client' quoteId h habout hcommitted
    obtain ⟨status, rfl, h⟩ := reply_swapStatusSnapshot h
    obtain ⟨claimed, -, hasked, h⟩ := replyStatus_eq_ok h
    -- a status is about the quote it was asked for, or about the one its swap was bound to
    have hquote : claimed.accept.quoteId = quoteId := by
      apply hasked
      rw [asked]
      rcases habout with hnamed | ⟨hnone, swapId, hswap, hbound⟩
      · rw [hnamed, Option.some_or]
      · rw [hnone, hswap, Option.none_or]
        exact hbound
    obtain ⟨⟨hash, commit⟩, hstored⟩ := hbacked.committed quoteId hcommitted
    rw [hquote] at h
    -- the client has committed itself, so that a status without a contract is refused
    rcases h with ⟨-, hmissing, -⟩ | ⟨contract, hcontract, hover, h⟩
    · cases hmissing.symm.trans hstored
    · obtain ⟨opened, hsigner, hopen, hid, heq, -⟩ := openRecovered_eq_ok h
      cases heq
      exact ⟨status, contract, hash, commit, rfl, hcontract, hsigner,
        (ContractReply.open_eq_ok hopen).1, hopen, hid.trans hquote, hstored,
        hover hash commit hstored, hbacked.commits quoteId hash commit hstored⟩

end CapClient

end

/-! ## An agreement

The inputs of the repository's golden vectors: the hashes and signatures that it
computes for the signing key of thirty-two sevens. -/

namespace AgreedSwap

/-- The provider's key. -/
def signer : String := "ea4a6c63e29c520abef5507b132ec5f9954776aebebe7b92421eea691446d22c"

def expected : Option Bytes32 := hexBytes 32 signer

def parties : Parties where
  owner := String.ofList (List.replicate 52 'y')
  provider := String.ofList (List.replicate 52 'b')

/-- An identifier of one repeated byte. -/
def uuid (byte : ℕ) : Uuid := byte * ((256 ^ 16 - 1) / 255)

/-- The owner asks for a quote. -/
def quoteRequest : QuoteRequest where
  requestId := some (uuid 9)
  offerId := uuid 1
  clientPkarr := ""
  direction := .reverse
  amountSat := 100000

def termsHashText : String := "273f025818bb3fdcc84dfd3d26092e66592bdf0705c146ea7f2be4a0e8234161"

def commitHashText : String := "dca484d94be41ef37eb4d7eeac3d2b8686a3e0e92e0bfc9e2a370a77ed0ebdc5"

def contractHashText : String := "8e52dcc64cdbaaa377d333130d5ab411f14fb21c3962ec28c2e45fe507953974"

def signedQuote : SignedQuote where
  requestId := some (uuid 9)
  quote :=
    { quoteId := uuid 2, offerId := uuid 1, direction := .reverse, amountSat := 100000,
      feeSat := 1470, serviceFeeSat := 700, onchainFeeSat := 770, feeRateSatVb := 5,
      totalSat := 101470, htlcTimeoutBlocks := 144, requiredConfirmations := 1,
      validUntilUnix := 1800000000, fundWithinSecs := 300, protocolVersion := 1 }
  termsHash := termsHashText
  signer := signer
  signature := "79b0ee025abdcf78dd2102f5a021da439a046f66680aab41c0dfe0a6025e3ed4" ++
    "4583fd3cb482d7fc1d2a9fa548c669a38c8a932aea38053d6f21c3b13ac25009"

/-- The owner takes the quote. -/
def request : SwapRequest where
  scriptType := .taprootBoltz
  quoteId := uuid 2
  clientPkarr := ""
  direction := .reverse
  paymentHashHex := "1111111111111111111111111111111111111111111111111111111111111111"
  clientClaimPubkeyHex :=
    some "022222222222222222222222222222222222222222222222222222222222222222"
  ownerRef := some "index:7"

/-- What the owner is to end up with. -/
def accept : SwapAccept where
  scriptType := .taprootBoltz
  quoteId := uuid 2
  swapId := uuid 3
  direction := .reverse
  htlcAddress := "bcrt1pexample"
  onchainAmountSat := 100000
  timeoutBlockHeight := 800144
  providerPubkeyHex := "033333333333333333333333333333333333333333333333333333333333333333"
  invoice := some "lnbcrt1hold"

def invoiceBlob : InvoiceBlob where
  key := "134bebb0f1ff375a313ae93656d21fb77d675dc90792ce5851f3bed7ea7c4472"
  ciphertext := "4cedd704d2f1fb74fec51ee2db1a7120533d1c325b5402bca7e31d"

def contract : ContractReply where
  signed :=
    { commitHash := commitHashText
      contract :=
        { accept := { accept with invoice := none }
          invoiceBlobHash :=
            some "d5ca0171a6e291a71397e6900689bb8715c62c18adfd06ab11b09befbeb06ff4" }
      contractHash := contractHashText
      signer := signer
      signature := "71ce6dbbb353b21878053dc90f015948c40c9e4763bd176358500581898815b1" ++
        "37900e0612796c015c08c2644f08b47f831ede22c37930e6b3afedce2729d90a" }
  invoiceBlob := some invoiceBlob

def termsDigest : Bytes32 :=
  Bytes32.ofNat 0x273f025818bb3fdcc84dfd3d26092e66592bdf0705c146ea7f2be4a0e8234161

def commitDigest : Bytes32 :=
  Bytes32.ofNat 0xdca484d94be41ef37eb4d7eeac3d2b8686a3e0e92e0bfc9e2a370a77ed0ebdc5

def contractDigest : Bytes32 :=
  Bytes32.ofNat 0x8e52dcc64cdbaaa377d333130d5ab411f14fb21c3962ec28c2e45fe507953974

/-- SHA-256 of the four texts that are hashed for this swap, told apart by what they begin
with: the three that are signed, and the sealed invoice. -/
local instance hashes : Crypto :=
  { tableCrypto [] with
    sha256 := fun bytes =>
      if termsDomain <+: bytes then termsDigest
      else if commitDomain <+: bytes then commitDigest
      else if contractDomain <+: bytes then contractDigest
      else Bytes32.ofNat 0xd5ca0171a6e291a71397e6900689bb8715c62c18adfd06ab11b09befbeb06ff4 }

/-- The two signatures over those hashes, and the one sealed text. -/
local instance ciphers : CapCrypto where
  verifyStrict key hash signature := decide (Hex.encode key = signer ∧
    ((Hex.encode hash, Hex.encode signature) = (termsHashText, signedQuote.signature) ∨
      (Hex.encode hash, Hex.encode signature) = (contractHashText, contract.signed.signature)))
  decrypt key ciphertext :=
    if Hex.encode key = invoiceBlob.key ∧ Hex.encode ciphertext = invoiceBlob.ciphertext then
      some (utf8 "lnbcrt1hold".toList)
    else none

/-! ### The hashes -/

theorem termsHash_signedQuote :
    termsHash parties quoteRequest.constraints signedQuote.quote = .ok termsDigest := by
  rw [termsHash, termsPreimage]
  refine map_domainPreimage ?_ fun rest => if_pos (List.prefix_append _ _)
  simp [RfqConstraints.toJson, Quote.toJson, SwapDirection.toJson, uuidValue, natValue, quoteTerms,
    signedQuote, quoteRequest, QuoteRequest.constraints]
  decide

theorem commitHash_request :
    commitHash termsHashText (.fromRequest request) = .ok commitDigest := by
  rw [commitHash, commitPreimage]
  refine map_domainPreimage ?_ fun rest => ?_
  · simp [CommitBody.toJson, SwapDirection.toJson, SwapScript.toJson, uuidValue,
      CommitBody.fromRequest, request]
  · show ite _ _ _ = _
    rw [if_neg (not_prefix_append terms_commit_apart rest), if_pos (List.prefix_append _ _)]

theorem contractHash_contract :
    contractHash commitHashText contract.signed.contract = .ok contractDigest := by
  rw [contractHash, contractPreimage]
  refine map_domainPreimage ?_ fun rest => ?_
  · simp [ContractBody.toJson, SwapAccept.toJson, SwapDirection.toJson, SwapScript.toJson,
      uuidValue, natValue, nullable, contract, accept]
    decide
  · show ite _ _ _ = _
    rw [if_neg (not_prefix_append terms_contract_apart rest),
      if_neg (not_prefix_append commit_contract_apart rest), if_pos (List.prefix_append _ _)]

theorem verify_signedQuote : signedQuote.verify parties quoteRequest.constraints = .ok () := by
  rw [SignedQuote.verify, termsHash_signedQuote]
  decide +kernel

theorem open_contract : contract.open = .ok accept := by
  have hverify : contract.signed.verify = .ok () := by
    rw [SignedContract.verify, show contract.signed.commitHash = commitHashText from rfl,
      contractHash_contract]
    decide +kernel
  rw [ContractReply.open, hverify]
  decide +kernel

/-! ### The agreement -/

/-- A quote is asked for and verified, and committed to. -/
def negotiation : List CapClient.Call :=
  [.request (.quoteRequest quoteRequest), .reply (.quoteRequest quoteRequest) (.quote signedQuote),
    .request (.swapRequest request)]

/-- The commit that is sent. -/
def commit : Commit where
  termsHash := termsHashText
  commit := .fromRequest request
  quote := some ⟨quoteRequest.rfq, signedQuote⟩

/-- The client that has verified the quote. -/
def quoted : CapClient :=
  { CapClient.new expected parties with
    quotes := AList.insert (uuid 2) ⟨quoteRequest.rfq, signedQuote⟩ ∅ }

/-- The client that has committed to it. -/
def committed : CapClient :=
  { quoted with commits := AList.insert (uuid 2) (commitHashText, commit) ∅ }

theorem encode_commitDigest : Hex.encode commitDigest = commitHashText := by
  decide +kernel

theorem request_quoted :
    quoted.request (.swapRequest request) = (some (.commit commit), committed) := by
  have hlookup : quoted.quotes.lookup request.quoteId = some ⟨quoteRequest.rfq, signedQuote⟩ := rfl
  simp only [CapClient.request, hlookup]
  rw [show signedQuote.termsHash = termsHashText from rfl, commitHash_request]
  simp only [encode_commitDigest]
  rfl

theorem step_quote : (CapClient.new expected parties).step
    (.reply (.quoteRequest quoteRequest) (.quote signedQuote)) = quoted := by
  have hallows : (CapClient.new expected parties).checkSigner signedQuote.signer = .ok () := by
    decide +kernel
  have hreply : (CapClient.new expected parties).replyQuote quoteRequest signedQuote =
      .ok (.quote signedQuote.toQuote, quoted) := by
    rw [CapClient.replyQuote, hallows,
      show (CapClient.new expected parties).parties = parties from rfl, verify_signedQuote]
    rfl
  rw [CapClient.step, CapClient.reply, hreply]

theorem after_quoted : CapClient.after expected parties (negotiation.take 2) = quoted := by
  have hasked : (CapClient.new expected parties).step (.request (.quoteRequest quoteRequest)) =
      CapClient.new expected parties := rfl
  rw [CapClient.after, CapClient.run, negotiation, List.take_succ_cons, List.take_succ_cons,
    List.take_zero, List.foldl_cons, List.foldl_cons, List.foldl_nil, hasked, step_quote]

theorem after_negotiation : CapClient.after expected parties negotiation = committed := by
  have hquoted := after_quoted
  have hsplit : negotiation = negotiation.take 2 ++ [.request (.swapRequest request)] := rfl
  rw [CapClient.after] at hquoted ⊢
  rw [hsplit, CapClient.run_append, hquoted, CapClient.run, List.foldl_cons, List.foldl_nil,
    CapClient.step, request_quoted]

/-- The client that has opened the contract. -/
def bound : CapClient := { committed with swaps := AList.insert (uuid 3) (uuid 2) ∅ }

theorem replyContract_committed :
    committed.replyContract request contract = .ok (.swapAccept accept, bound) := by
  have hallows : committed.checkSigner contract.signed.signer = .ok () := by
    decide +kernel
  have hlookup : committed.quotes.lookup request.quoteId =
      some ⟨quoteRequest.rfq, signedQuote⟩ := rfl
  refine check_bind_eq_ok.mpr ⟨hallows, bind_eq_ok_iff.mpr ⟨_, okOr_eq_ok.mpr hlookup, ?_⟩⟩
  refine bind_eq_ok_iff.mpr ⟨commitDigest, commitHash_request, ite_error_eq_ok.mpr ⟨?_, ?_⟩⟩
  · exact not_not.mpr encode_commitDigest
  · refine bind_eq_ok_iff.mpr ⟨accept, open_contract, ite_error_eq_ok.mpr ⟨?_, rfl⟩⟩
    exact not_not.mpr rfl

/-- The contract that answers the commit. -/
def opened : CapClient.Call := .reply (.swapRequest request) (.contract contract)

theorem after_opened : CapClient.after expected parties (negotiation ++ [opened]) = bound := by
  have hafter := after_negotiation
  rw [CapClient.after] at hafter ⊢
  rw [CapClient.run_append, hafter, CapClient.run, List.foldl_cons, List.foldl_nil, opened,
    CapClient.step, CapClient.reply, replyContract_committed]

/-- The owner asks for its swap by its id. -/
def statusRequest : SwapStatusRequest where
  swapId := some (uuid 3)
  quoteId := none

def snapshot (accept : SwapAccept) : SwapStatusSnapshot where
  accept := accept
  network := .regtest
  state := .created
  requiredConfirmations := 1
  updatedAtUnix := 0
  observedAtUnix := 0

/-- It gets the contract again. -/
def status : Status where
  state := "created"
  snapshot := some (snapshot { accept with invoice := none })
  contract := some contract

theorem replyStatus_bound : bound.replyStatus statusRequest status =
    .ok (.swapStatusSnapshot (snapshot accept),
      { bound with swaps := bound.swaps.insert (uuid 3) (uuid 2) }) := by
  have hallows : bound.checkSigner contract.signed.signer = .ok () := by
    decide +kernel
  refine bind_eq_ok_iff.mpr ⟨_, okOr_eq_ok.mpr rfl, ite_error_eq_ok.mpr ⟨by decide, ?_⟩⟩
  refine ite_error_eq_ok.mpr ⟨by decide, ite_error_eq_ok.mpr ⟨not_not.mpr rfl, ?_⟩⟩
  refine check_bind_eq_ok.mpr ⟨hallows, bind_eq_ok_iff.mpr ⟨accept, open_contract, ?_⟩⟩
  exact ite_error_eq_ok.mpr ⟨not_not.mpr rfl, rfl⟩

/-- **The client takes what was signed for its commit**: the contract of the golden
vectors, its sealed invoice opened, and later the same contract with a status. -/
theorem accepts_only_signed_agreed :
    (∃ signed digest, CapClient.Verified parties negotiation
        (CapClient.after expected parties negotiation) signed ∧
      commitHash signed.termsHash (.fromRequest request) = .ok digest ∧
      commitHashText = Hex.encode digest ∧ contract.open = .ok accept) ∧
    ∃ hash commit, commitHashText = hash ∧
      CapClient.Sent parties (negotiation ++ [opened])
        (CapClient.after expected parties (negotiation ++ [opened])) (uuid 2) hash commit := by
  constructor
  · have hreply : (CapClient.after expected parties negotiation).reply (.swapRequest request)
        (.contract contract) = .ok (.swapAccept accept, bound) := by
      rw [after_negotiation]
      exact replyContract_committed
    obtain ⟨_, signed, digest, ⟨⟩, -, -, hopen, -, hverified, -, hdigest, hcommit⟩ :=
      (CapClient.accepts_only_signed expected parties negotiation).1 request (.contract contract)
        accept _ hreply
    exact ⟨signed, digest, hverified, hdigest, hcommit, hopen⟩
  · have hcommitted : CapClient.Committed (CapClient.new expected parties)
        (negotiation ++ [opened]) (uuid 2) := by
      refine ⟨negotiation.take 2, [opened], request, commit, rfl, rfl, ?_⟩
      rw [show (CapClient.new expected parties).run (negotiation.take 2) = quoted from
        after_quoted, request_quoted]
    obtain ⟨sent, found, hash, commit, hstatus, hfound, -, -, -, -, -, hcommit, hsent⟩ :=
      (CapClient.accepts_only_signed expected parties (negotiation ++ [opened])).2 statusRequest
        (.status status) (snapshot accept) _ (uuid 2)
          (by rw [after_opened]; exact replyStatus_bound)
        (.inr ⟨rfl, uuid 3, rfl, by rw [after_opened]; rfl⟩) hcommitted
    obtain rfl := CapMessage.status.inj hstatus
    obtain rfl : contract = found := Option.some.inj hfound
    exact ⟨hash, commit, hcommit, hsent⟩

end AgreedSwap

/-! ## A swap bound without a commit -/

namespace RecoveredSwap

/-- The provider's key. -/
def signer : String := "ea4a6c63e29c520abef5507b132ec5f9954776aebebe7b92421eea691446d22c"

def accept : SwapAccept where
  quoteId := 3
  swapId := 9
  direction := .submarine
  onchainAmountSat := 100000
  timeoutBlockHeight := 800144
  providerPubkeyHex := "021111111111111111111111111111111111111111111111111111111111111111"

def signedHash : String := "047606f7afb38ac72050f381020ce92cf816241bd07aade7b72d631b8b05e98b"

def contract : SignedContract where
  commitHash := "abababababababababababababababababababababababababababababababab"
  contract := { accept := accept }
  contractHash := signedHash
  signer := signer
  signature := "bb3a8066dadbb07b708ae5f7fe6989720f54f9b7ddef8830694b3ea5d34464ca" ++
    "4a794d258ce5601578c0e0824817a72d75546ddc91bbd8787397bff8ba1ecb0b"

/-- The crates, for the one text that is hashed here and the one signature over
it. -/
local instance hashes : Crypto :=
  { tableCrypto [] with
    sha256 := fun _ =>
      Bytes32.ofNat 0x047606f7afb38ac72050f381020ce92cf816241bd07aade7b72d631b8b05e98b }

local instance signatures : CapCrypto where
  verifyStrict _ _ _ := true
  decrypt _ _ := none

def parties : Parties where
  owner := "owner"
  provider := "provider"

def expected : Option Bytes32 := hexBytes 32 signer

/-- The owner asks for the swap by its id. -/
def request : SwapStatusRequest where
  swapId := some 9
  quoteId := none

def snapshot (accept : SwapAccept) : SwapStatusSnapshot where
  accept := accept
  network := .bitcoin
  state := .created
  requiredConfirmations := 1
  updatedAtUnix := 0
  observedAtUnix := 0

/-- A recovery: the provider answers with the swap and its contract. -/
def recovery : CapClient.Call :=
  .reply (.swapStatusRequest request)
    (.status { state := "created", snapshot := some (snapshot accept),
               contract := some { signed := contract } })

/-- Later it answers with another address, unsigned. -/
def unsigned : Status where
  state := "created"
  snapshot := some (snapshot { accept with htlcAddress := "bc1qother" })

/-- **A status for a swap whose contract was opened need not be signed**: without a
commit for its quote the reply is taken as it is. -/
theorem unsigned_status_accepted :
    ¬ ∀ calls request message snapshot client' swapId quoteId,
      (CapClient.after expected parties calls).reply (.swapStatusRequest request) message =
        .ok (.swapStatusSnapshot snapshot, client') →
      request.swapId = some swapId →
      (CapClient.after expected parties calls).swaps.lookup swapId = some quoteId →
      ∃ status contract, message = .status status ∧ status.contract = some contract := by
  intro hall
  have hbound : (CapClient.after expected parties [recovery]).swaps.lookup 9 = some 3 := by
    decide +kernel
  have hanswer : ((CapClient.after expected parties [recovery]).replyStatus request unsigned).map
      Prod.fst =
        .ok (.swapStatusSnapshot (snapshot { accept with htlcAddress := "bc1qother" })) := by
    decide +kernel
  obtain ⟨⟨message, client'⟩, hreply, rfl⟩ := CanonicalJson.map_eq_ok.mp hanswer
  obtain ⟨status, contract, hstatus, hcontract⟩ := hall [recovery] request (.status unsigned) _
    client' 9 3 hreply rfl hbound
  cases hstatus
  cases hcontract

end RecoveredSwap

end PubkySwap
