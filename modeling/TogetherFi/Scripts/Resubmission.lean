/-
  Whether a recorded completion is sent again.

  The script looks up the first entry of the completion and, unless the network
  knows the transaction, sends the saved envelope again if that entry is not a
  confirmed one.  A replay appends a second entry, so the confirmation may stand
  in an entry that no later run looks at.  In a manifest with a confirmed entry
  the transaction is never sent again exactly when the first entry is confirmed
  or no run passes the checks (`Settled`).
-/
import TogetherFi.Scripts.Completion

namespace TogetherFi

open Outcome Process

namespace Scripts

/-- The hash an event sends. -/
def Event.sent : Event → Option String
  | .save _ => none
  | .send hash => some hash

/-- The hashes a run sends before its crash. -/
def sends (sdk : Sdk) (m : Manifest) (r : Run Submission) : List String :=
  (r.visible (submitCompletion sdk) m).filterMap Event.sent

/-- The script run again and again over the saved manifest. -/
abbrev journal (sdk : Sdk) : Machine Manifest (Run Submission) Empty :=
  crashing Event.saved (submitCompletion sdk)

/-- `h` is the approved hash. -/
def Manifest.Approves (m : Manifest) (h : String) : Prop := m.approval.map Approval.hash = some h

/-- A confirmed completion of the hash is recorded. -/
def Manifest.Recorded (m : Manifest) (h : String) : Prop :=
  ∃ e ∈ m.transactions, e.label = completionLabel ∧ e.hash = h ∧ e.status = .confirmedSuccess

/-- It is recorded by the first entry of the completion. -/
def Manifest.FirstConfirmed (m : Manifest) (h : String) : Prop :=
  ∃ e, m.prior h = some e ∧ e.status = .confirmedSuccess

/-- A saved envelope that the script would send again. -/
def Entry.IsReplayable (sdk : Sdk) (keys : List String) (h : String) (e : Entry) : Prop :=
  ∃ frozen, sdk.fromXDR e.signedXdr = .ok frozen ∧ sdk.hash frozen = h ∧
    2 ≤ approvedSignatureCount sdk frozen keys

/-- Some file and some first entry pass the checks of the script: the manifest is not
    marked as confirmed, and two members have signed. -/
structure Manifest.Passable (sdk : Sdk) (m : Manifest) (h : String) (keys : List String)
    (approval : Approval) (signed : Transaction) (prior : Entry) : Prop where
  members : validateSigners sdk m.toConfig = .ok keys
  approved : m.approval = some approval
  hash : approval.hash = h
  unconfirmed : approval.status ≠ some "confirmed"
  prepared : approval.unsignedXdr.getD "" ≠ ""
  readable : ∃ text, sdk.fromXDR text = .ok signed
  signed_hash : sdk.hash signed = h
  source : some signed.source = m.accounts.settlement
  single : signed.operations.length = 1
  quorum : 2 ≤ approvedSignatureCount sdk signed keys
  first : m.prior h = some prior
  replayable : prior.IsReplayable sdk keys h

/-- The first entry of the completion is confirmed, or no run passes the checks. -/
def Manifest.Settled (sdk : Sdk) (m : Manifest) (h : String) : Prop :=
  m.FirstConfirmed h ∨ ¬ ∃ keys approval signed prior, m.Passable sdk h keys approval signed prior

/-! ## The parts of a run -/

section
variable {sdk : Sdk} {m m' : Manifest} {run : Submission} {keys : List String} {approval : Approval}
  {signed : Transaction} {prior : Entry} {h : String} {answers : Answers}

theorem gates_ok (hg : gates sdk m run = .ok (keys, approval, signed)) :
    validateSigners sdk m.toConfig = .ok keys ∧ m.approval = some approval ∧
      approval.status ≠ some "confirmed" ∧ approval.unsignedXdr.getD "" ≠ "" ∧
      (∃ text, sdk.fromXDR text = .ok signed) ∧ sdk.hash signed = approval.hash ∧
      some signed.source = m.accounts.settlement ∧ signed.operations.length = 1 ∧
      2 ≤ approvedSignatureCount sdk signed keys := by
  simp only [gates, bind_eq_ok, orThrow_eq_ok, throwIf_eq_ok, exists_const, pure_eq,
    Except.ok.injEq, Prod.mk.injEq, not_or, not_not, not_lt, Option.filter_eq_some_iff,
    decide_eq_true_eq] at hg
  obtain ⟨_, -, keys', hkeys, hconf, approval', ⟨happ, hxdr⟩, text, -, signed', hsigned,
    ⟨hhash, hsource, hops⟩, hcount, _, -, _, -, _, -, _, -, rfl, rfl, rfl⟩ := hg
  rw [happ] at hconf
  exact ⟨hkeys, happ, hconf, hxdr, ⟨text, hsigned⟩, hhash, hsource, hops, hcount⟩

/-- Where the first entry is confirmed or cannot be replayed, the lookup sends and saves
    nothing, and goes on only if the network has the transaction. -/
theorem resumeCompletion_idle
    (hidle : prior.status = .confirmedSuccess ∨ ¬ prior.IsReplayable sdk keys h) :
    (resumeCompletion sdk answers keys h prior m).Ensures (fun _ => False) fun out =>
      out.1 = m ∧ ∃ r, answers.prior = .ok r ∧ r.status = .success := by
  unfold resumeCompletion
  refine (ensures_ofExcept _).bind fun result hresult => ?_
  refine (ensures_ofExcept _).bind fun _ _ => ?_
  by_cases hs : result.status = .success
  · rw [if_pos hs]
    exact ensures_pure ⟨rfl, result, hresult, hs⟩
  · rw [if_neg hs]
    refine (ensures_ofExcept _).bind fun _ hstatus => ?_
    refine (ensures_ofExcept _).bind fun frozen hfrozen => ?_
    refine (ensures_ofExcept _).bind fun _ hvalid => ?_
    rw [throwIf_eq_ok] at hstatus hvalid
    rw [not_or, not_not, not_lt] at hvalid
    rcases hidle with hconfirmed | hreplay
    · exact absurd hconfirmed hstatus
    · exact absurd ⟨frozen, hfrozen, hvalid⟩ hreplay

/-- Verification marks the approval as confirmed and leaves the entries. -/
theorem verifyCompletion_ok {ledger : Option ℕ} (hv : verifyCompletion answers ledger m = .ok m') :
    m'.transactions = m.transactions ∧
      m'.approval = m.approval.map fun a => { a with status := some "confirmed",
                                                     completionLedger := ledger } := by
  simp only [verifyCompletion, bind_eq_ok, pure_eq, Except.ok.injEq] at hv
  obtain ⟨_, -, _, -, _, -, _, -, _, -, _, -, _, -, _, -, rfl⟩ := hv
  exact ⟨rfl, rfl⟩

/-! ## One run -/

/-- A confirmed manifest that is settled; runs keep it so (`Closed.step`). -/
structure Manifest.Closed (sdk : Sdk) (m : Manifest) (h : String) : Prop where
  approves : m.Approves h
  recorded : m.Recorded h
  settled : m.Settled sdk h

/-- A confirmed entry is found by its label and hash, or one before it. -/
theorem Manifest.exists_prior (hr : m.Recorded h) : ∃ e, m.prior h = some e := by
  obtain ⟨e, he, hlabel, hhash, -⟩ := hr
  rw [← Option.isSome_iff_exists, Manifest.prior, List.find?_isSome]
  exact ⟨e, he, decide_eq_true ⟨hlabel, hhash⟩⟩

theorem Manifest.Closed.hash_eq (hm : m.Closed sdk h)
    (hg : gates sdk m run = .ok (keys, approval, signed)) : approval.hash = h := by
  have happ := hm.approves
  rw [Manifest.Approves, (gates_ok hg).2.1] at happ
  exact Option.some.inj happ

/-- Past the checks of a closed manifest, the first entry is confirmed or cannot be
    replayed. -/
theorem Manifest.Closed.idle (hm : m.Closed sdk h)
    (hg : gates sdk m run = .ok (keys, approval, signed)) (hp : m.prior h = some prior) :
    prior.status = .confirmedSuccess ∨ ¬ prior.IsReplayable sdk keys h := by
  obtain ⟨hkeys, happ, hconf, hxdr, htext, hhash, hsource, hops, hcount⟩ := gates_ok hg
  have hh := hm.hash_eq hg
  rcases hm.settled with ⟨e, he, hs⟩ | hstuck
  · rw [he] at hp
    exact .inl (Option.some.inj hp ▸ hs)
  · refine .inr fun hreplay => hstuck ⟨keys, approval, signed, prior, ?_⟩
    exact ⟨hkeys, happ, hh, hconf, hxdr, htext, hhash.trans hh, hsource, hops, hcount, hp, hreplay⟩

/-- **One run**: it sends nothing, what it saves is closed again, and it stops with an
    error unless the network has the transaction. -/
theorem Manifest.Closed.step (hm : m.Closed sdk h) (run : Submission) :
    (submitCompletion sdk m run).Ensures
      (fun w => w.sent ≠ some h ∧ ∀ m', w.saved = some m' → m'.Closed sdk h)
      fun _ => ∃ r, run.answers.prior = .ok r ∧ r.status = .success := by
  unfold submitCompletion
  refine (ensures_ofExcept _).bind fun out hg => ?_
  obtain ⟨keys, approval, signed⟩ := out
  obtain ⟨prior, hprior⟩ := Manifest.exists_prior hm.recorded
  have hidle : (resumeCompletion sdk run.answers keys h prior m).Ensures _ _ :=
    resumeCompletion_idle (hm.idle hg hprior)
  simp only [hm.hash_eq hg, hprior]
  refine (hidle.mono (fun _ => False.elim) fun _ => id).bind fun out hout => ?_
  obtain ⟨m₁, submitted⟩ := out
  obtain ⟨rfl, hfound⟩ := hout
  refine (ensures_ofExcept _).bind fun m₂ hver => ?_
  refine (ensures_emit ⟨?_, fun m' hm' => ?_⟩).mono (fun _ => id) fun _ _ => hfound
  · simp [Event.sent]
  · obtain rfl := Option.some.inj hm'
    obtain ⟨htxs, happ⟩ := verifyCompletion_ok hver
    refine ⟨?_, ?_, .inr ?_⟩
    · rw [Manifest.Approves, happ, Option.map_map]
      exact hm.approves
    · rw [Manifest.Recorded, htxs]
      exact hm.recorded
    · -- the saved approval is marked as confirmed
      rintro ⟨_, approval', _, _, hpass⟩
      have hstatus := hpass.approved
      rw [happ, Option.map_eq_some_iff] at hstatus
      obtain ⟨a, -, rfl⟩ := hstatus
      exact hpass.unconfirmed rfl

/-! ## A run that sends it again -/

/-- A network that has forgotten the transaction, and does not answer when it is sent. -/
def forgetful (account : Account) : Answers where
  account := fun _ => .ok account
  prior := .ok ⟨.notFound, none, none⟩
  one := ⟨.error "", fun _ => .error ""⟩
  two := ⟨.error "", fun _ => .error ""⟩
  balance := fun _ => .error ""
  campaign := .error ""
  counters := fun _ => .error ""

theorem exists_quorum_account {config : Config} (hkeys : validateSigners sdk config = .ok keys) :
    ∃ account, assertQuorum account keys = .ok () := by
  obtain ⟨-, -, hlen, hnodup, -⟩ := validateSigners_eq_ok.1 hkeys
  have hinf : Infinite String :=
    Infinite.of_injective String.ofList fun _ _ => String.ofList_injective
  obtain ⟨master, hmaster⟩ := Infinite.exists_notMem_finset keys.toFinset
  rw [List.mem_toFinset] at hmaster
  have hkey : (keys.map fun key => (⟨key, 1, .ed25519PublicKey⟩ : Signer)).map Signer.key = keys := by
    rw [List.map_map]
    exact List.map_id keys
  refine ⟨⟨master, 0, ⟨2, 2, 2⟩, keys.map (⟨·, 1, .ed25519PublicKey⟩), by rwa [hkey]⟩, ?_⟩
  refine (assertQuorum_eq_ok hlen hnodup).2 ⟨⟨⟨?_, hnodup, fun k n hn => ?_⟩, ?_⟩, hmaster, ?_⟩
  · rwa [Account.weights_fst, hkey]
  · simp [Account.weights, eq_comm]
  · intro s hs _
    obtain ⟨k, -, rfl⟩ := List.mem_map.1 hs
    rfl
  · simp [Thresholds.values]

theorem Manifest.Passable.gates_ok (hp : m.Passable sdk h keys approval signed prior) :
    ∃ text account, gates sdk m ⟨some (.ok text), forgetful account⟩ =
      .ok (keys, approval, signed) := by
  obtain ⟨text, htext⟩ := hp.readable
  obtain ⟨account, haccount⟩ := exists_quorum_account hp.members
  refine ⟨text, account, ?_⟩
  simp only [gates, bind_eq_ok, orThrow_eq_ok, throwIf_eq_ok, exists_const, pure_eq,
    Option.filter_eq_some_iff, decide_eq_true_eq]
  refine ⟨_, rfl, keys, hp.members, ?_, approval, ⟨hp.approved, hp.prepared⟩, text, rfl, signed,
    htext, ?_, hp.quorum.not_gt, account, rfl, _, haccount, account, rfl, _, haccount, rfl⟩
  · rw [hp.approved]
    exact hp.unconfirmed
  · rw [hp.hash]
    simp [hp.signed_hash, hp.source, hp.single]

/-- **The defect**: where the first entry is not confirmed, a run sends its envelope again. -/
theorem Manifest.Passable.resent (hp : m.Passable sdk h keys approval signed prior)
    (hfirst : ¬ m.FirstConfirmed h) :
    ∃ run, Event.send h ∈ (submitCompletion sdk m run).events := by
  obtain ⟨text, account, hg⟩ := hp.gates_ok
  obtain ⟨frozen, hfrozen, hhash, hcount⟩ := hp.replayable
  have hstatus : prior.status ≠ .confirmedSuccess := fun hs => hfirst ⟨prior, hp.first, hs⟩
  refine ⟨⟨some (.ok text), forgetful account⟩, ?_⟩
  unfold submitCompletion
  simp only [mem_bind, ofExcept_events, ofExcept_result, List.not_mem_nil, false_or]
  refine ⟨_, hg, ?_⟩
  rw [hp.hash, hp.first]
  refine mem_bind.2 (.inl ?_)
  simp only [resumeCompletion, forgetful, mem_bind, ofExcept_events, ofExcept_result,
    throwIf_eq_ok, List.not_mem_nil, false_or, exists_const]
  refine ⟨_, rfl, by simp, ?_⟩
  simp only [reduceCtorEq, if_false, mem_bind, ofExcept_events, ofExcept_result, throwIf_eq_ok,
    List.not_mem_nil, false_or, exists_const]
  refine ⟨hstatus, frozen, hfrozen, by rw [not_or, not_not, not_lt]; exact ⟨hhash, hcount⟩, ?_⟩
  simp [submitPrepared, mem_bind, hhash]

/-! ## The journal -/

/-- What the event saves continues the journal of `m`. -/
def Event.Continues (m : Manifest) (w : Event) : Prop :=
  ∀ m', w.saved = some m' → m.transactions <+: m'.transactions

theorem Event.continues_send (hash : String) : (Event.send hash).Continues m := fun _ hm' => by
  cases hm'

theorem Event.continues_save (hm : m.transactions <+: m'.transactions) :
    (Event.save m').Continues m := by
  intro _ hm'
  obtain rfl := Option.some.inj hm'
  exact hm

theorem Event.Continues.trans {w : Event} (hm : m.transactions <+: m'.transactions)
    (hw : w.Continues m') : w.Continues m :=
  fun m'' hm'' => hm.trans (hw m'' hm'')

theorem Manifest.push_transactions (entry : Entry) :
    m.transactions <+: (m.push entry).transactions := List.prefix_append _ _

theorem recordConfirmed_continues {answers : SubmissionAnswers} {entry : Entry} :
    (recordConfirmed answers entry m).Ensures (Event.Continues m)
      fun out => m.transactions <+: out.1.transactions := by
  unfold recordConfirmed
  refine (ensures_ofExcept _).bind fun result _ => ?_
  refine (ensures_emit (Event.continues_save (m.push_transactions _))).bind fun _ _ => ?_
  exact ensures_pure (m.push_transactions _)

theorem recordRejected_continues {sent : SendResult} {entry : Entry} {expectBadAuth : Bool} :
    (recordRejected sent entry expectBadAuth m).Ensures (Event.Continues m)
      fun out => m.transactions <+: out.1.transactions := by
  unfold recordRejected
  refine (ensures_emit (Event.continues_save (m.push_transactions _))).bind fun _ _ => ?_
  split
  · exact ensures_pure (m.push_transactions _)
  · exact ensures_stop

theorem submitPrepared_continues {answers : SubmissionAnswers} {transaction : Transaction}
    {label : String} {expectBadAuth : Bool} :
    (submitPrepared sdk answers transaction label expectBadAuth m).Ensures (Event.Continues m)
      fun out => m.transactions <+: out.1.transactions := by
  unfold submitPrepared
  refine (ensures_emit (Event.continues_save (m.push_transactions _))).bind fun _ _ => ?_
  refine (ensures_emit (Event.continues_send _)).bind fun _ _ => ?_
  cases answers.send with
  | error message =>
    refine (ensures_emit (Event.continues_save (m.push_transactions _))).bind fun _ _ => ?_
    split
    · exact ensures_stop
    · exact recordConfirmed_continues
  | ok sent =>
    simp only
    split
    · exact recordRejected_continues
    · split
      · exact ensures_stop
      · exact recordConfirmed_continues

theorem resumeCompletion_continues :
    (resumeCompletion sdk answers keys h prior m).Ensures (Event.Continues m)
      fun out => m.transactions <+: out.1.transactions := by
  unfold resumeCompletion
  refine (ensures_ofExcept _).bind fun result _ => ?_
  refine (ensures_ofExcept _).bind fun _ _ => ?_
  split
  · exact ensures_pure (List.prefix_refl _)
  · refine (ensures_ofExcept _).bind fun _ _ => ?_
    refine (ensures_ofExcept _).bind fun frozen _ => ?_
    refine (ensures_ofExcept _).bind fun _ _ => ?_
    exact submitPrepared_continues

theorem firstCompletion_continues :
    (firstCompletion sdk answers keys signed m).Ensures (Event.Continues m)
      fun out => m.transactions <+: out.1.transactions := by
  unfold firstCompletion
  refine (ensures_ofExcept _).bind fun copy _ => ?_
  refine (ensures_ofExcept _).bind fun _ _ => ?_
  refine submitPrepared_continues.bind fun rejected hm => ?_
  exact submitPrepared_continues.mono (fun _ hw => hw.trans hm) fun _ hout => hm.trans hout

/-- **One run continues the journal**: it changes none of the entries that it finds. -/
theorem submitCompletion_continues (sdk : Sdk) (m : Manifest) (run : Submission) :
    (submitCompletion sdk m run).Ensures (Event.Continues m) fun _ => True := by
  unfold submitCompletion
  refine (ensures_ofExcept _).bind fun out _ => ?_
  have hlast : ∀ out : Manifest × Submitted, m.transactions <+: out.1.transactions →
      (do let m ← Process.ofExcept (verifyCompletion run.answers out.2.ledger out.1)
          emit (Event.save m) : Process String Event Unit).Ensures (Event.Continues m)
        fun _ => True := by
    intro out hm
    refine (ensures_ofExcept _).bind fun m₂ hver => ?_
    rw [← (verifyCompletion_ok hver).1] at hm
    exact ensures_emit (Event.continues_save hm)
  cases hp : m.prior out.2.1.hash with
  | some prior =>
    simp only [hp]
    exact resumeCompletion_continues.bind hlast
  | none =>
    simp only [hp]
    exact firstCompletion_continues.bind hlast

theorem journal_continues (sdk : Sdk) (m : Manifest) (runs : List (Run Submission)) :
    m.transactions <+: ((journal sdk).run m runs).transactions :=
  crashing_invariant (I := fun m' => m.transactions <+: m'.transactions)
    (fun m' run hm w hw m'' hm'' =>
      hm.trans ((submitCompletion_continues sdk m' run).events w hw m'' hm''))
    (List.prefix_refl _) runs

/-- **The first entry is final**: the lookup of any later run finds the same entry, so that
    the run that made it has decided whether the completion can be sent again. -/
theorem prior_final (hp : m.prior h = some prior) (runs : List (Run Submission)) :
    ((journal sdk).run m runs).prior h = some prior := by
  obtain ⟨entries, hentries⟩ := journal_continues sdk m runs
  rw [Manifest.prior, ← hentries, List.find?_append]
  rw [Manifest.prior] at hp
  rw [hp]
  rfl

/-! ## All runs -/

theorem mem_sends {r : Run Submission} :
    h ∈ sends sdk m r ↔ ∃ w ∈ r.visible (submitCompletion sdk) m, w.sent = some h := by
  rw [sends, List.mem_filterMap]

end

/-- **A recorded completion is sent again exactly where its first entry is not the
    confirmed one** and a run passes the checks.  `m` is the manifest that any runs have
    left, the approved transaction confirmed in one of its entries: no later run sends
    it, and each stops with an error or has found it on the network, exactly when `m` is
    settled. -/
theorem never_resent_iff_settled {sdk : Sdk} {m : Manifest} {h : String} (happroves : m.Approves h)
    (hrecorded : m.Recorded h) :
    (∀ runs, ∀ t ∈ (journal sdk).trace m runs, h ∉ sends sdk t.pre t.act ∧
      ((∃ e, (submitCompletion sdk t.pre t.act.input).result = .error e) ∨
        ∃ r, t.act.input.answers.prior = .ok r ∧ r.status = .success)) ↔
    m.Settled sdk h := by
  constructor
  · intro hnever
    by_contra hopen
    rw [Manifest.Settled, not_or, not_not] at hopen
    obtain ⟨hfirst, keys, approval, signed, prior, hpass⟩ := hopen
    obtain ⟨run, hrun⟩ := hpass.resent hfirst
    -- the run gets to its end
    obtain ⟨t, ht, hpre, hact⟩ := crashing_trace Event.saved (submitCompletion sdk) m
      ⟨run, (submitCompletion sdk m run).events.length⟩
    refine (hnever [_] t ht).1 (mem_sends.2 ⟨.send h, ?_, rfl⟩)
    rw [hpre, hact, Run.visible, List.take_length]
    exact hrun
  · intro hsettled runs t ht
    have hclosed : m.Closed sdk h := ⟨happroves, hrecorded, hsettled⟩
    obtain ⟨hpre, hsent⟩ := crashing_events (I := fun m => m.Closed sdk h)
      (P := fun w => w.sent ≠ some h) (fun m run hm => (hm.step run).events) hclosed ht
    constructor
    · intro hmem
      obtain ⟨w, hw, hs⟩ := mem_sends.1 hmem
      exact hsent w hw hs
    · cases hr : (submitCompletion sdk t.pre t.act.input).result with
      | error e => exact .inl ⟨e, rfl⟩
      | ok u => exact .inr ((hpre.step t.act.input).result u hr)

/-! ## Three runs -/

namespace Sample

/-- A completion signed by two members. -/
def completion : Transaction where
  source := key 'E'
  sequence := 201
  fee := 10000
  maxTime := 86400
  operations := [.invokeHostFunction]
  signatures := [sign (key 'A') (key 'E'), sign (key 'B') (key 'E')]

/-- The envelopes of the three runs are the completion and its copy with one signature. -/
def envelopes : Sdk := { sdk with
  fromXDR := fun text =>
    if text = "two signatures" then .ok completion
    else if text = "one signature" then
      .ok { completion with signatures := completion.signatures.take 1 }
    else .error "Invalid XDR"
  toXDR := fun transaction =>
    if transaction.signatures.length = 2 then "two signatures" else "one signature" }

/-- The manifest of a completion that was prepared. -/
def prepared : Manifest where
  toConfig := config
  accounts := ⟨some (key 'D'), some (key 'E')⟩
  approval := some ⟨some "requires_two_member_wallet_signatures", key 'E', some "unsigned", none⟩
  transactions := []
  evidence := ⟨none, fun _ => none, none, [], none, [], none⟩
  status := none

/-- The script with the signed file, to its end: the network does not know the completion
    when it is asked, and answers `send` and `poll` when it is sent. -/
def attempt (send : Except String SendResult) (poll : TransactionStatus) : Run Submission where
  input.input := some (.ok "two signatures")
  input.answers.account
    | .governance => .ok governance
    | .settlement => .ok settlement
  input.answers.prior := .ok ⟨.notFound, none, none⟩
  input.answers.one :=
    ⟨.ok ⟨.error, some ⟨"AAAA", "txBadAuth"⟩⟩, fun _ => .ok ⟨.notFound, none, none⟩⟩
  input.answers.two := ⟨send, fun _ => .ok ⟨poll, some 70, some 1000⟩⟩
  input.answers.balance := fun _ => .error "timeout"
  input.answers.campaign := .error "timeout"
  input.answers.counters := fun _ => .error "timeout"
  crash := 100

/-- The outcome of the transaction that is sent is lost. -/
def lost : Run Submission := attempt (.error "timeout") .notFound

/-- The transaction that is sent is confirmed. -/
def confirmed : Run Submission := attempt (.ok ⟨.pending, none⟩) .success

end Sample

/-- The outcome of the first run is lost, the second replays the envelope and confirms it,
    and the third, once the network has forgotten it, sends it again. -/
theorem recorded_completion_resent : ¬ ∀ (sdk : Sdk) (m : Manifest) (h : String)
    (before : List (Run Submission)), ((journal sdk).run m before).Approves h →
    ((journal sdk).run m before).Recorded h →
    ∀ runs, ∀ t ∈ (journal sdk).trace ((journal sdk).run m before) runs, h ∉ sends sdk t.pre t.act ∧
      ((∃ e, (submitCompletion sdk t.pre t.act.input).result = .error e) ∨
        ∃ r, t.act.input.answers.prior = .ok r ∧ r.status = .success) := by
  intro hclaim
  have hsent : Sample.key 'E' ∈ sends Sample.envelopes
      ((journal Sample.envelopes).run Sample.prepared [Sample.lost, Sample.confirmed])
      Sample.lost := by decide +kernel
  have happroves : ((journal Sample.envelopes).run Sample.prepared
      [Sample.lost, Sample.confirmed]).Approves (Sample.key 'E') := by
    unfold Manifest.Approves
    decide +kernel
  have hrecorded : ((journal Sample.envelopes).run Sample.prepared
      [Sample.lost, Sample.confirmed]).Recorded (Sample.key 'E') := by
    unfold Manifest.Recorded
    decide +kernel
  obtain ⟨t, ht, hpre, hact⟩ := crashing_trace Event.saved (submitCompletion Sample.envelopes)
    ((journal Sample.envelopes).run Sample.prepared [Sample.lost, Sample.confirmed]) Sample.lost
  rw [← hpre, ← hact] at hsent
  exact (hclaim _ _ _ _ happroves hrecorded [_] t ht).1 hsent

/-- Confirmed in the run that first sent it, the completion is not sent by the next. -/
theorem never_resent_iff_settled_sample :
    Sample.key 'E' ∉ sends Sample.envelopes
      ((journal Sample.envelopes).run Sample.prepared [Sample.confirmed]) Sample.lost := by
  have happroves : ((journal Sample.envelopes).run Sample.prepared
      [Sample.confirmed]).Approves (Sample.key 'E') := by
    unfold Manifest.Approves
    decide +kernel
  have hrecorded : ((journal Sample.envelopes).run Sample.prepared
      [Sample.confirmed]).Recorded (Sample.key 'E') := by
    unfold Manifest.Recorded
    decide +kernel
  have hfirst : (((journal Sample.envelopes).run Sample.prepared
      [Sample.confirmed]).prior (Sample.key 'E')).map Entry.status = some .confirmedSuccess := by
    decide +kernel
  obtain ⟨t, ht, hpre, hact⟩ := crashing_trace Event.saved (submitCompletion Sample.envelopes)
    ((journal Sample.envelopes).run Sample.prepared [Sample.confirmed]) Sample.lost
  have hnever := (never_resent_iff_settled happroves hrecorded).2
    (.inl (Option.map_eq_some_iff.1 hfirst)) [_] t ht
  rw [hpre, hact] at hnever
  exact hnever.1

end Scripts

end TogetherFi
