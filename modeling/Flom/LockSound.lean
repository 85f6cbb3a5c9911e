import Flom.DaemonMail

set_option autoImplicit false

namespace Flom

def Mail.tells (mail : Mail) (msg : Msg) : Prop :=
  msg.verb = .lock ∧ msg.step = mail.step ∧ (msgAnswer msg).rc = mail.rc

def Carries : List Mail → List Delivery → Prop
  | _, [] => True
  | mail, .answer rc msg :: later =>
    match mail with
    | [] => False
    | item :: rest => (rc = .ok → item.tells msg) ∧ Carries rest later
  | mail, .timeout :: later | mail, .failed _ _ :: later | mail, .empty :: later =>
    Carries mail later

theorem carries_append {mail : List Mail} {earlier later : List Delivery}
    (carries : Carries mail (earlier ++ later)) (deferred : ∀ delivery ∈ earlier, delivery.defers) :
    ∃ front behind, mail = front ++ behind ∧ Carries behind later ∧
    (∀ item ∈ front, item.rc.defers) ∧
      ((∃ first, .answer .ok first ∈ earlier) → front ≠ []) := by
  induction earlier generalizing mail with
  | nil => exact ⟨[], mail, rfl, carries, by simp, by simp⟩
  | cons delivery rest ih =>
    rw [List.forall_mem_cons] at deferred
    cases delivery with
    | timeout => exact deferred.1.elim
    | failed => exact deferred.1.elim
    | empty =>
      obtain ⟨front, behind, split, carried, waits, some⟩ := ih carries deferred.2
      refine ⟨front, behind, split, carried, waits, fun ⟨first, member⟩ => some ⟨first, ?_⟩⟩
      simpa using member
    | answer rc msg =>
      cases mail with
      | nil => exact carries.elim
      | cons item others =>
        obtain ⟨ok, defers⟩ := deferred.1
        obtain ⟨lock, _, same⟩ := carries.1 ok
        obtain ⟨front, behind, rfl, carried, waits, _⟩ := ih carries.2 deferred.2
        refine ⟨item :: front, behind, rfl, carried, ?_, fun _ => by simp⟩
        exact List.forall_mem_cons.mpr ⟨same ▸ defers lock, waits⟩

theorem accepted_granted {mail : List Mail} {config : ClientConfig} {net : ClientNet}
    {locked : ClientLocked} (paced : mail.IsChain fun earlier later => earlier.rc.defers →
      later.fair) (delivered : Carries mail net.deliveries)
    (result : clientLock config net = some locked) (ok : locked.rc = .ok) :
    ∃ item msg, item ∈ mail ∧ net.deliveries[locked.used - 1]? = some (.answer .ok msg) ∧
    item.tells msg ∧
      item.rc = .ok := by
  obtain ⟨earlier, msg, accepted⟩ := clientLock_ok result ok
  obtain ⟨later, consumed⟩ := accepted.consumed
  rw [consumed] at delivered
  obtain ⟨front, behind, rfl, carries, deferring, asked⟩ :=
    carries_append delivered accepted.deferred
  cases behind with
  | nil => exact carries.elim
  | cons item rest =>
    obtain ⟨lock, step, code⟩ := carries.1 rfl
    refine ⟨item, msg, by simp, ?_, ⟨lock, step, code⟩, ?_⟩
    · rw [accepted.used, consumed]
      simp
    · obtain ⟨_, granted⟩ | ⟨third, busy, first⟩ := accepted.answer lock
      · rw [← code, granted]
      · have last := List.getLast?_eq_some_getLast (asked first)
        have fair := (List.isChain_append.mp paced).2.2 _ last item rfl
          (deferring _ (List.mem_of_getLast? last))
        refine (fair (step ▸ third)).resolve_right fun enqueued => busy ?_
        rw [code, enqueued]

theorem tracked_run {decode : Name → Name} {client : ConnId} {multicast tlsCheckPeerId : Bool}
    {turns : List Turn}
    (served : Run.Along (daemonStep decode)
      (fun daemon turn => turn.Along decode
        (fun daemon id revents => Genuine decode client daemon id revents ∧
          Modest decode client daemon id revents)
        (fun slot event => slot.asks client event) daemon)
      (daemonStart multicast tlsCheckPeerId) turns) :
    Tracked client (Run.run (daemonStep decode) (daemonStart multicast tlsCheckPeerId) turns) := by
  apply Run.along_invariant (daemonStep decode) _ (Tracked client) _ _ _
    (tracked_start_up _ _) served
  intro daemon turn tracked along
  apply @daemonStep_invariant decode (Tracked client) _ _ _ _ _ _ _ daemon turn tracked along
  · exact fun _ tracked => tracked_cleaned tracked
  · exact fun _ _ _ tracked allowed => tracked_serve tracked allowed.1 allowed.2
  · intro _ tracked
    exact ⟨tracked.honest, tracked.paced, tracked.single, tracked.apart, tracked.incubated,
      tracked.handed⟩
  · exact fun _ closed tracked => tracked_checked tracked closed
  · exact fun _ _ _ _ tracked slotted asks => tracked_turn tracked slotted asks

-- `skipped` counts what earlier calls on the connection have read.
theorem client_lock_granted (decode : Name → Name) (multicast tlsCheckPeerId : Bool)
    (turns : List Turn) (client : ConnId) (config : ClientConfig) (net : ClientNet)
    (locked : ClientLocked) (skipped : Nat)
    (served : Run.Along (daemonStep decode)
      (fun daemon turn => turn.Along decode
        (fun daemon id revents => Genuine decode client daemon id revents ∧
          Modest decode client daemon id revents)
        (fun slot event => slot.asks client event) daemon)
      (daemonStart multicast tlsCheckPeerId) turns)
    (delivered : Carries
      ((mailTo client (Run.run (daemonStep decode)
        (daemonStart multicast tlsCheckPeerId) turns).mail).drop skipped)
      net.deliveries)
    (result : clientLock config net = some locked) (ok : locked.rc = .ok) :
    ∃ mail msg, mail ∈ (Run.run (daemonStep decode)
      (daemonStart multicast tlsCheckPeerId) turns).mail ∧
      net.deliveries[locked.used - 1]? = some (.answer .ok msg) ∧ mail.tells msg ∧
      mail.conn = client ∧
      mail.rc = .ok ∧ client ∈ mail.holding := by
  have tracked := tracked_run served
  obtain ⟨mail, msg, inside, consumed, tells, granted⟩ :=
    accepted_granted (tracked.paced.drop skipped) delivered result ok
  obtain ⟨sent, addressed⟩ := List.mem_filter.mp (List.mem_of_mem_drop inside)
  have mine : mail.conn = client := of_decide_eq_true addressed
  exact ⟨mail, msg, sent, consumed, tells, mine, granted, mine ▸ tracked.honest mail sent granted⟩

def fiveConfig (quantity : Int32) (create : Int) : ClientConfig :=
  ⟨some ['p'], ['x', '[', '5', ']'], .ex, -1, quantity, create, 0, true⟩

def machineName : Name := ['m']

def Mail.delivery (mail : Mail) : Delivery :=
  .answer .ok (msgIdentify machineName (msgBuildAnswer msgInit .lock mail.step mail.rc none).2)

def mailNet (mail : List Mail) : ClientNet :=
  ⟨.ok, .ok, some ⟨some machineName⟩, true, .ok, mail.map Mail.delivery⟩

theorem genuine_of_silent {decode : Name → Name} {client : ConnId} {daemon : Daemon} {id : Nat}
    {revents : Revents} (fresh : id = 0 → revents.accept.accepted = some client →
      daemon.fresh client) (pipe : revents.accept.control ≠ client)
    (silent : revents.accept.arrival = .empty) :
    Genuine decode client daemon id revents ∧ Modest decode client daemon id revents := by
  refine ⟨⟨fresh, pipe, ?_⟩, ?_⟩
  · intro conn feed _ _ arrived
    cases silent.symm.trans arrived
  · intro conn feed name _ _ arrived
    cases silent.symm.trans arrived

theorem client_lock_granted_five :
    let turns := [joinTurn 2, requestTurn [.quiet] ['1'] ['1'], readTurn]
    let mail : List Mail := [⟨2, 16, .ok, [2]⟩]
    mailTo 2 (Run.run (daemonStep decodeFive) (daemonStart false false) turns).mail = mail ∧
      clientLock (fiveConfig 1 1) (mailNet mail) = some ⟨.ok, none, 1⟩ ∧
      ∃ item msg, item ∈ (Run.run (daemonStep decodeFive) (daemonStart false false) turns).mail ∧
        (mailNet mail).deliveries[0]? = some (.answer .ok msg) ∧ item.tells msg ∧ item.conn = 2 ∧
        item.rc = .ok ∧ 2 ∈ item.holding := by
  intro turns mail
  have sent :
      mailTo 2 (Run.run (daemonStep decodeFive) (daemonStart false false) turns).mail = mail := by
    decide
  refine ⟨sent, by decide,
    client_lock_granted decodeFive false false turns 2 (fiveConfig 1 1) (mailNet mail)
      ⟨.ok, none, 1⟩ 0 ⟨?_, ?_, ?_, trivial⟩ ?_ (by decide) rfl⟩
  · refine ⟨genuine_of_silent (fun _ _ => ⟨by decide, by simp [daemonStart, Daemon.cleaned]⟩)
      (by decide) rfl, ?_⟩
    exact fun _ _ => trivial
  · refine ⟨genuine_of_silent (fun _ joins => by cases joins) (by decide) rfl, ?_⟩
    rintro after ⟨⟩
    refine ⟨⟨⟨by simp, by decide, ?_⟩, ?_⟩, fun _ _ => trivial⟩
    · rintro conn feed ⟨⟩ _ ⟨⟩
      exact ⟨rfl, by decide⟩
    · rintro conn feed name ⟨⟩ _ ⟨⟩ _ answers
      cases answers with
      | incubated _ _ create _ => exact absurd create (by decide)
  · rintro slot ⟨⟩
    refine ⟨?_, fun _ _ => trivial⟩
    intro conn msg _ _ data
    cases data
  · rw [sent]
    exact ⟨fun _ => ⟨rfl, rfl, rfl⟩, trivial⟩

-- The client asks for ten of five while nobody manages the resource, and is put in the incubator.
-- When the locker starts for another client it is told that the lock is impossible, with step 24,
-- and returns OK.
theorem impossible_lock_granted :
    let turns := [joinTurn 2, requestTurn [.quiet] ['1', '0'] ['0'], joinTurn 3,
      requestTurn [.quiet, .quiet] ['1'] ['1'], readTurn, readTurn]
    let mail : List Mail := [⟨2, 16, .lockWaitResource, []⟩, ⟨2, 24, .lockImpossible, [3]⟩]
    mailTo 2 (Run.run (daemonStep decodeFive) (daemonStart false false) turns).mail = mail ∧
      Carries mail (mailNet mail).deliveries ∧
      clientLock (fiveConfig 10 0) (mailNet mail) = some ⟨.ok, none, 2⟩ ∧
      ¬∃ item msg, item ∈ mail ∧ (mailNet mail).deliveries[1]? = some (.answer .ok msg) ∧
        item.tells msg ∧
        2 ∈ item.holding := by
  refine ⟨by decide, ?_, by decide, ?_⟩
  · exact ⟨fun _ => ⟨rfl, rfl, rfl⟩, fun _ => ⟨rfl, rfl, rfl⟩, trivial⟩
  · rintro ⟨item, msg, member, _, _, holds⟩
    simp only [List.mem_cons, List.not_mem_nil, or_false] at member
    obtain rfl | rfl := member
    · exact absurd holds (by decide)
    · exact absurd holds (by decide)

end Flom
