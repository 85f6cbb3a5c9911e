import Flom.Client
import Flom.DaemonMoves
import Flom.LockerTurn
import Mathlib.Algebra.Order.BigOperators.Group.List
import Mathlib.Algebra.Order.Ring.Nat
import Mathlib.Data.List.Chain
import Mathlib.Data.List.Nodup

set_option autoImplicit false

namespace Flom

open Lists

def mailTo (client : ConnId) (mail : List Mail) : List Mail :=
  mail.filter fun item => item.conn = client

def Paced (client : ConnId) (mail : List Mail) : Prop :=
  (mailTo client mail).IsChain fun earlier later => earlier.rc.defers → later.fair

def Deferred (client : ConnId) (mail : List Mail) : Prop :=
  ∃ last ∈ (mailTo client mail).getLast?, last.rc.defers

theorem mailTo_append (client : ConnId) (mail new : List Mail) :
    mailTo client (mail ++ new) = mailTo client mail ++ mailTo client new := List.filter_append ..

theorem mailTo_foreign {client : ConnId} {new : List Mail}
    (foreign : ∀ mail ∈ new, mail.conn ≠ client) :
    mailTo client new = [] := by
  simpa [mailTo, List.filter_eq_nil_iff] using foreign

theorem paced_fair {client : ConnId} {mail new : List Mail} (paced : Paced client mail)
    (fair : ∀ item ∈ new, item.conn = client → item.fair) : Paced client (mail ++ new) := by
  have good : ∀ item ∈ mailTo client new, item.fair := by
    intro item member
    obtain ⟨inside, mine⟩ := List.mem_filter.mp member
    exact fair item inside (of_decide_eq_true mine)
  unfold Paced
  rw [mailTo_append, List.isChain_append]
  refine ⟨paced, ?_, ?_⟩
  · generalize mailTo client new = items at good
    induction items with
    | nil => exact .nil
    | cons item rest ih =>
      cases rest with
      | nil => exact .singleton item
      | cons next later =>
        refine .cons_cons (fun _ => good next (by simp)) (ih fun other member => ?_)
        exact good other (List.mem_cons_of_mem _ member)
  · intro last _ first member _
    exact good first (List.mem_of_mem_head? member)

theorem paced_single {client : ConnId} {mail : List Mail} {item : Mail} (paced : Paced client mail)
    (fair : Deferred client mail → item.fair) : Paced client (mail ++ [item]) := by
  unfold Paced
  rw [mailTo_append, List.isChain_append]
  refine ⟨paced, ?_, ?_⟩
  · unfold mailTo
    by_cases mine : item.conn = client <;> simp [mine]
  · intro last final first member defers
    have same : first = item := by
      have inside := List.mem_of_mem_head? member
      simpa using (List.mem_filter.mp inside).1
    rw [same]
    exact fair ⟨last, final, defers⟩

def LockerSlot.carries (slot : LockerSlot) (client : ConnId) : Nat :=
  (slot.pipe.map fun token => token.conn.id).count client

def Daemon.afoot (daemon : Daemon) (client : ConnId) : Nat :=
  (daemon.conns.map Conn.id).count client + (daemon.lockers.map fun slot => slot.carries client).sum

def Daemon.fresh (daemon : Daemon) (client : ConnId) : Prop :=
  daemon.afoot client = 0 ∧ ∀ slot ∈ daemon.lockers, ¬slot.thread.hosts client

def Msg.overAsks (msg : Msg) : Prop :=
  ∃ name total, msg.lock8.name = some name ∧ rsrcGetType name = .numeric ∧
    rsrcGetNumber name .numeric = .ok total ∧ total < msg.lock8.quantity

structure Tracked (client : ConnId) (daemon : Daemon) : Prop where
  honest : ∀ mail ∈ daemon.mail, mail.honest
  paced : Paced client daemon.mail
  single : daemon.afoot client ≤ 1
  apart : daemon.afoot client ≠ 0 → ∀ slot ∈ daemon.lockers, ¬slot.thread.hosts client
  incubated : ∀ conn ∈ daemon.conns, conn.id = client → conn.lastStep = 2 * msgStepIncr →
    Deferred client daemon.mail → conn.msg.lock8.wait ≠ 0 ∧ ¬conn.msg.overAsks
  handed : ∀ slot ∈ daemon.lockers, ∀ token ∈ slot.pipe, token.conn.id = client →
    token.conn.lastStep = 2 * msgStepIncr → Deferred client daemon.mail →
    slot.thread.resource.suits token.conn.msg

section

variable {client : ConnId} {daemon : Daemon}

theorem Tracked.of_conns (tracked : Tracked client daemon) {conns : List Conn}
    (fewer : (conns.map Conn.id).count client ≤ (daemon.conns.map Conn.id).count client)
    (incubated : ∀ conn ∈ conns, conn.id = client → conn.lastStep = 2 * msgStepIncr →
      Deferred client daemon.mail → conn.msg.lock8.wait ≠ 0 ∧ ¬conn.msg.overAsks) :
    Tracked client { daemon with conns := conns } := by
  have less : ({ daemon with conns := conns } : Daemon).afoot client ≤ daemon.afoot client :=
    Nat.add_le_add_right fewer _
  refine ⟨tracked.honest, tracked.paced, less.trans tracked.single, fun some => ?_, incubated,
    tracked.handed⟩
  exact tracked.apart (by omega)

theorem ids_set {conns : List Conn} {id : Nat} {conn conn' : Conn}
    (present : conns[id]? = some conn) (same : conn'.id = conn.id) :
    (conns.set id conn').map Conn.id = conns.map Conn.id := by
  obtain ⟨front, behind, rfl, rfl⟩ := split_of_getElem? present
  simp [same]

theorem Tracked.setConn (tracked : Tracked client daemon) {id : Nat} {conn conn' : Conn}
    (present : daemon.conns[id]? = some conn) (same : conn'.id = conn.id)
    (incubated : conn'.id = client → conn'.lastStep = 2 * msgStepIncr →
      Deferred client daemon.mail →
      conn'.msg.lock8.wait ≠ 0 ∧ ¬conn'.msg.overAsks) :
      Tracked client (daemon.setConn id conn') := by
  apply tracked.of_conns
  · rw [ids_set present same]
  · intro other member
    obtain old | rfl := List.mem_or_eq_of_mem_set member
    · exact tracked.incubated other old
    · exact incubated

def LockerSlot.Alike (slot slot' : LockerSlot) : Prop :=
  slot'.thread = slot.thread ∧ slot'.pipe = slot.pipe

theorem alike_sum {slots slots' : List LockerSlot}
    (alike : List.Forall₂ LockerSlot.Alike slots slots') :
    (slots'.map fun slot => slot.carries client) = slots.map fun slot => slot.carries client := by
  induction alike with
  | nil => rfl
  | cons head tail ih =>
    rw [List.map_cons, List.map_cons, ih, LockerSlot.carries, LockerSlot.carries, head.2]

theorem Tracked.of_alike (tracked : Tracked client daemon) {kept slots : List LockerSlot}
    (shorter : kept.Sublist daemon.lockers) (alike : List.Forall₂ LockerSlot.Alike kept slots) :
    Tracked client { daemon with lockers := slots } := by
  have less : ({ daemon with lockers := slots } : Daemon).afoot client ≤ daemon.afoot client := by
    apply Nat.add_le_add_left
    rw [show (slots.map fun slot => slot.carries client) = _ from alike_sum alike]
    exact (shorter.map _).sum_le_sum (by simp)
  refine ⟨tracked.honest, tracked.paced, less.trans tracked.single, fun some slot member => ?_,
    tracked.incubated, fun slot member => ?_⟩
  · obtain ⟨old, inside, same⟩ := forall₂_mem alike member
    rw [same.1]
    exact tracked.apart (by omega) old (shorter.subset inside)
  · obtain ⟨old, inside, same⟩ := forall₂_mem alike member
    rw [same.1, same.2]
    exact tracked.handed old (shorter.subset inside)

end

/-- What flom_client sends on its own connection: requests that parse. Nothing else in the process
goes by the identity of the connection. -/
structure Genuine (decode : Name → Name) (client : ConnId) (daemon : Daemon) (id : Nat)
    (revents : Revents) :
    Prop where
  fresh : id = 0 → revents.accept.accepted = some client → daemon.fresh client
  pipe : revents.accept.control ≠ client
  request : ∀ conn feed, daemon.conns[id]? = some conn → conn.id = client →
    revents.accept.arrival = .bytes feed →
    feed.wellFormed = true ∧ (conn.fed decode feed).lastStep = msgStepIncr

def Modest (decode : Name → Name) (client : ConnId) (daemon : Daemon) (id : Nat)
    (revents : Revents) : Prop :=
  ∀ conn feed name, daemon.conns[id]? = some conn → conn.id = client →
    revents.accept.arrival = .bytes feed → (conn.fed decode feed).requests name →
    daemon.Answers (conn.fed decode feed).msg name .lockWaitResource →
      ¬(conn.fed decode feed).msg.overAsks

section

variable {decode : Name → Name} {client : ConnId} {origin daemon : Daemon} {id : Nat}
  {revents : Revents}

theorem tracked_close (tracked : Tracked client daemon) (closed : Bool) :
    Tracked client (daemonClose daemon id closed).2 := by
  unfold daemonClose connsCloseFd
  split
  · next conn present =>
    have standing := tracked.incubated conn (List.mem_of_getElem? present)
    obtain ⟨sockfd, terminated⟩ := connTerminate_snd conn closed
    refine tracked.setConn present (connTerminate_id conn closed) ?_
    rw [terminated]
    exact standing
  · exact tracked

theorem tracked_join (tracked : Tracked client daemon) {conn : Conn} {state : ConnState}
    {sockfd : Bool} {tls : Option Tls}
    (made : conn = { connInit conn.id false true with
      state := state, sockfd := sockfd, tls :=
  tls }) (fresh : conn.id = client → daemon.fresh client) :
    Tracked client { daemon with conns := daemon.conns ++ [conn] } := by
  have counted : ({ daemon with conns := daemon.conns ++ [conn] } : Daemon).afoot client =
      daemon.afoot client + if conn.id = client then 1 else 0 := by
    simp only [Daemon.afoot, List.map_append, List.count_append, List.map_singleton,
      List.count_singleton,
      beq_iff_eq]
    omega
  have unasked : conn.lastStep ≠ 2 * msgStepIncr := by
    rw [made]
    simp [connInit, msgStepIncr]
  refine ⟨tracked.honest, tracked.paced, ?_, ?_, ?_, tracked.handed⟩
  · rw [counted]
    split_ifs with mine
    · rw [(fresh mine).1]
    · exact tracked.single
  · intro afoot
    by_cases mine : conn.id = client
    · exact (fresh mine).2
    · rw [counted, if_neg mine] at afoot
      exact tracked.apart afoot
  · intro other member
    obtain old | new := List.mem_append.mp member
    · exact tracked.incubated other old
    · obtain rfl := List.mem_singleton.mp new
      exact fun _ asked => absurd asked unasked

theorem deferred_single (mail : List Mail) (item : Mail) :
    Deferred client (mail ++ [item]) ↔
      if item.conn = client then item.rc.defers else Deferred client mail := by
  unfold Deferred
  rw [mailTo_append]
  split_ifs with mine
  · simp [mailTo, mine]
  · simp [mailTo, mine]

theorem carries_pos {slot : LockerSlot} {token : Token} (member : token ∈ slot.pipe)
    (mine : token.conn.id = client) : 0 < slot.carries client :=
  List.count_pos_iff.mpr (List.mem_map.mpr ⟨token, member, mine⟩)

theorem carries_le_sum {slots : List LockerSlot} {slot : LockerSlot} (member : slot ∈ slots) :
    slot.carries client ≤ (slots.map fun slot => slot.carries client).sum :=
  List.single_le_sum (by simp) _ (List.mem_map_of_mem member)

theorem conns_pos {conns : List Conn} {conn : Conn} (member : conn ∈ conns)
    (mine : conn.id = client) :
    0 < (conns.map Conn.id).count client :=
  List.count_pos_iff.mpr (List.mem_map.mpr ⟨conn, member, mine⟩)

theorem Tracked.unpiped (tracked : Tracked client daemon) {conn : Conn}
    (member : conn ∈ daemon.conns) (mine : conn.id = client) {slot : LockerSlot}
    (inside : slot ∈ daemon.lockers) {token : Token} (piped : token ∈ slot.pipe) :
    token.conn.id ≠ client := by
  intro same
  have one := tracked.single
  have here := conns_pos member mine
  have there := carries_pos piped same
  have sum := @carries_le_sum client _ _ inside
  unfold Daemon.afoot at one
  omega

theorem Tracked.only (tracked : Tracked client daemon) {conn conn' other : Conn}
    (present : daemon.conns[id]? = some conn) (mine : conn.id = client)
    (member : other ∈ daemon.conns.set id conn') (same : other.id = client) : other = conn' := by
  have one := tracked.single
  obtain ⟨front, behind, conns, rfl⟩ := split_of_getElem? present
  unfold Daemon.afoot at one
  simp only [conns, List.map_append, List.map_cons, List.count_append, List.count_cons, mine,
    beq_self_eq_true,
    if_true] at one
  simp only [conns, List.set_append_right _ _ (Nat.le_refl _), Nat.sub_self, List.set_cons_zero,
    List.mem_append, List.mem_cons] at member
  obtain before | here | after := member
  · have more := conns_pos before same
    omega
  · exact here
  · have more := conns_pos after same
    omega

theorem tracked_answer (tracked : Tracked client daemon) {conn : Conn} {rc : Rc}
    (present : daemon.conns[id]? = some conn) (refused : rc ≠ .ok)
    (modest : conn.id = client → rc.defers → conn.msg.lock8.wait ≠ 0 ∧ ¬conn.msg.overAsks) :
    Tracked client (daemon.answered id conn rc) := by
  have afoot : (daemon.answered id conn rc).afoot client = daemon.afoot client := by
    unfold Daemon.afoot
    refine congrArg (List.count client · + _) (ids_set present ?_)
    rfl
  have later := @deferred_single client daemon.mail ⟨conn.id, 2 * msgStepIncr, rc, []⟩
  refine ⟨?_, ?_, ?_, ?_, ?_, ?_⟩
  · intro mail member
    obtain old | new := List.mem_append.mp member
    · exact tracked.honest mail old
    · obtain rfl := List.mem_singleton.mp new
      exact fun ok => absurd ok refused
  · refine paced_fair tracked.paced fun item member _ => ?_
    obtain rfl := List.mem_singleton.mp member
    intro last
    simp [msgStepIncr] at last
  · rw [afoot]
    exact tracked.single
  · rw [afoot]
    exact tracked.apart
  · intro other member mine stepped deferred
    rw [show Deferred client (daemon.answered id conn rc).mail ↔ _ from later] at deferred
    by_cases same : conn.id = client
    · obtain rfl := tracked.only present same member mine
      rw [if_pos same] at deferred
      exact modest same deferred
    · rw [if_neg same] at deferred
      obtain old | rfl := List.mem_or_eq_of_mem_set member
      · exact tracked.incubated other old mine stepped deferred
      · exact absurd mine same
  · intro slot member token piped mine stepped deferred
    by_cases same : conn.id = client
    · exact absurd mine (tracked.unpiped (List.mem_of_getElem? present) same member piped)
    · rw [show Deferred client (daemon.answered id conn rc).mail ↔ _ from later, if_neg same]
        at deferred
      exact tracked.handed slot member token piped mine stepped deferred

end

section

variable {decode : Name → Name} {client : ConnId} {origin daemon : Daemon} {id : Nat}
  {revents : Revents}

theorem tracked_start (tracked : Tracked client daemon) {control : ConnId} {resource : Resource}
    (pipe : control ≠ client) (empty : resource.waiting = []) :
    Tracked client (daemon.started control resource) := by
  have afoot : (daemon.started control resource).afoot client = daemon.afoot client := by
    simp [Daemon.afoot, Daemon.started, LockerSlot.carries]
  have absent : ¬(lockerStart control resource).hosts client := by
    simp [Locker.hosts, lockerStart, connInit, pipe, empty]
  refine ⟨tracked.honest,
    tracked.paced, by rw [afoot]; exact tracked.single, fun some slot member => ?_,
    tracked.incubated, fun slot member => ?_⟩
  · rw [afoot] at some
    obtain old | new := List.mem_append.mp member
    · exact tracked.apart some slot old
    · obtain rfl := List.mem_singleton.mp new
      exact absent
  · obtain old | new := List.mem_append.mp member
    · exact tracked.handed slot old
    · obtain rfl := List.mem_singleton.mp new
      simp

theorem modify_split {A : Type} (front behind : List A) (item : A) (change : A → A) :
    (front ++ item :: behind).modify front.length change = front ++ change item :: behind := by
  induction front with
  | nil => rfl
  | cons first rest ih => simpa using ih

theorem alike_modify (slots : List LockerSlot) (position : Nat) (change : LockerSlot → LockerSlot)
    (alike : ∀ slot : LockerSlot, slot.Alike (change slot)) :
    List.Forall₂ LockerSlot.Alike slots (slots.modify position change) := by
  rw [List.forall₂_iff_get]
  refine ⟨by simp, fun index bound bound' => ?_⟩
  simp only [List.get_eq_getElem, List.getElem_modify]
  split_ifs
  · exact alike _
  · exact ⟨rfl, rfl⟩

theorem tracked_spend (tracked : Tracked client daemon) (locker : Nat) (conn : Conn) :
    Tracked client (daemon.spend locker conn) := by
  have spent := tracked.of_alike (.refl _) (alike_modify daemon.lockers locker
    (fun slot => { slot with writeSequence := slot.writeSequence + 1 }) fun _ => ⟨rfl, rfl⟩)
  exact ⟨spent.honest, spent.paced, spent.single, spent.apart, spent.incubated, spent.handed⟩

theorem removeIndexFast_ids {conns : List Conn} {position : Nat} {conn : Conn}
    (present : conns[position]? = some conn) :
    (conns.map Conn.id).count client =
      ((removeIndexFast conns position).map Conn.id).count client +
        if conn.id = client then 1 else 0 := by
  rw [((removeIndexFast_perm present).map Conn.id).count_eq, List.map_cons, List.count_cons]
  simp

theorem tracked_remove (tracked : Tracked client daemon) {position : Nat} {conn : Conn}
    (present : daemon.conns[position]? = some conn) : Tracked client (daemon.remove position) := by
  apply tracked.of_conns
  · rw [@removeIndexFast_ids client _ _ _ present]
    omega
  · intro other member
    exact tracked.incubated other
      ((removeIndexFast_perm present).symm.subset (List.mem_cons_of_mem conn member))

theorem tracked_hand (tracked : Tracked client daemon) {position locker : Nat} {conn : Conn}
    {slot : LockerSlot} (present : daemon.conns[position]? = some conn)
    (slotted : daemon.lockers[locker]? = some slot)
    (suits : conn.id = client → conn.lastStep = 2 * msgStepIncr → Deferred client daemon.mail →
      slot.thread.resource.suits conn.msg) :
    Tracked client ((daemon.remove position).push locker { conn with state := .locker }) := by
  obtain ⟨front, behind, lockers, rfl⟩ := split_of_getElem? slotted
  have pushed :
      ((daemon.remove position).push front.length { conn with state := .locker }).lockers = front ++
        { slot with pipe := slot.pipe ++ [⟨slot.writeSequence, { conn with state := .locker }⟩] } ::
        behind := by
    simp only [Daemon.push, Daemon.remove, lockers, modify_split]
  have afoot :
      ((daemon.remove position).push front.length { conn with state := .locker }).afoot client =
        daemon.afoot client := by
    have ids := @removeIndexFast_ids client _ _ _ present
    rw [Daemon.afoot, pushed, Daemon.afoot, lockers, ids]
    simp only [Daemon.push, Daemon.remove, List.map_append, List.map_cons, List.sum_append,
      List.sum_cons,
      LockerSlot.carries, List.count_append, List.map_nil, List.count_singleton, beq_iff_eq]
    omega
  have thread : ∀ other ∈ ((daemon.remove position).push front.length
    { conn with state := .locker }).lockers,
      ∃ old ∈ daemon.lockers, other.thread = old.thread := by
    rw [pushed, lockers]
    intro other member
    obtain before | here | after := List.mem_append.mp member |>.imp_right List.mem_cons.mp
    · exact ⟨other, by simp [before], rfl⟩
    · exact ⟨slot, by simp, by rw [here]⟩
    · exact ⟨other, by simp [after], rfl⟩
  refine ⟨tracked.honest,
    tracked.paced, by rw [afoot]; exact tracked.single, fun some other member => ?_,
    (tracked_remove tracked present).incubated, fun other member => ?_⟩
  · rw [afoot] at some
    obtain ⟨old, inside, same⟩ := thread other member
    rw [same]
    exact tracked.apart some old inside
  · rw [pushed] at member
    have standing := fun old inside => tracked.handed old (lockers ▸ inside)
    obtain before | here | after := List.mem_append.mp member |>.imp_right List.mem_cons.mp
    · exact standing other (by simp [before])
    · rw [here]
      intro token piped
      obtain old | new := List.mem_append.mp piped
      · exact standing slot (by simp) token old
      · obtain rfl := List.mem_singleton.mp new
        exact suits
    · exact standing other (by simp [after])

end

section

variable {client : ConnId} {daemon : Daemon} {locker : Nat} {slot slot' : LockerSlot}

theorem suits_of_capacity {resource resource' : Resource} {msg : Msg}
    (same : resource'.capacity = resource.capacity) (suits : resource.suits msg) :
    resource'.suits msg :=
  ⟨suits.1, fun total limited => suits.2 total (same ▸ limited)⟩

theorem mem_of_mem_set_slot {other : LockerSlot}
    (member : other ∈ daemon.lockers.set locker slot') :
    other ∈ daemon.lockers ∨ other = slot' := List.mem_or_eq_of_mem_set member

theorem afoot_set (slotted : daemon.lockers[locker]? = some slot) (mail : List Mail) :
    ({ daemon with lockers := daemon.lockers.set locker slot', mail := mail } : Daemon).afoot
        client + slot.carries client = daemon.afoot client + slot'.carries client := by
  obtain ⟨front, behind, lockers, rfl⟩ := split_of_getElem? slotted
  simp only [Daemon.afoot, lockers, List.set_append_right _ _ (Nat.le_refl _), Nat.sub_self,
    List.set_cons_zero, List.map_append, List.map_cons, List.sum_append, List.sum_cons]
  omega

theorem tracked_quiet (tracked : Tracked client daemon)
    (slotted : daemon.lockers[locker]? = some slot)
    (capacity : slot'.thread.resource.capacity = slot.thread.resource.capacity)
    (hosts : slot'.thread.hosts client → slot.thread.hosts client)
    (posted : ∀ mail ∈ slot'.thread.mail, mail.honest ∧
      (mail.conn = client → mail.fair ∧ slot.thread.hosts client))
    (carries : slot'.carries client = slot.carries client) (pipe : slot'.pipe ⊆ slot.pipe) :
    Tracked client
      { daemon with
        lockers := daemon.lockers.set locker slot', mail := daemon.mail ++ slot'.thread.mail } := by
  have inside : slot ∈ daemon.lockers := List.mem_of_getElem? slotted
  have afoot : ({ daemon with
      lockers := daemon.lockers.set locker slot', mail :=
        daemon.mail ++ slot'.thread.mail } : Daemon).afoot client =
      daemon.afoot client := by
    have counted := @afoot_set client daemon locker slot slot' slotted
      (daemon.mail ++ slot'.thread.mail)
    omega
  -- As long as the client is on its way nobody writes to it.
  have deferred : daemon.afoot client ≠ 0 → Deferred client (daemon.mail ++ slot'.thread.mail) →
      Deferred client daemon.mail := by
    intro some told
    have silent : mailTo client slot'.thread.mail = [] := mailTo_foreign fun mail member mine =>
      tracked.apart some slot inside ((posted mail member).2 mine).2
    unfold Deferred at told ⊢
    rwa [mailTo_append, silent, List.append_nil] at told
  refine ⟨?_, paced_fair tracked.paced fun mail member mine => ((posted mail member).2 mine).1, ?_,
    ?_, ?_, ?_⟩
  · intro mail member
    obtain old | new := List.mem_append.mp member
    · exact tracked.honest mail old
    · exact (posted mail new).1
  · rw [afoot]
    exact tracked.single
  · rw [afoot]
    intro some other member
    obtain old | rfl := mem_of_mem_set_slot member
    · exact tracked.apart some other old
    · exact fun hosted => tracked.apart some slot inside (hosts hosted)
  · intro conn member mine stepped told
    have some : daemon.afoot client ≠ 0 := by
      have here := conns_pos member mine
      dsimp only at here
      unfold Daemon.afoot
      omega
    exact tracked.incubated conn member mine stepped (deferred some told)
  · intro other member token piped mine stepped told
    have some : daemon.afoot client ≠ 0 := by
      have there := carries_pos piped mine
      have sum := @carries_le_sum client _ _ member
      rw [← afoot]
      unfold Daemon.afoot
      omega
    obtain old | rfl := mem_of_mem_set_slot member
    · exact tracked.handed other old token piped mine stepped (deferred some told)
    · exact suits_of_capacity capacity
        (tracked.handed slot inside token (pipe piped) mine stepped (deferred some told))

theorem tracked_arrived (tracked : Tracked client daemon)
    (slotted : daemon.lockers[locker]? = some slot) {token : Token}
    (taken : slot.pipe = token :: slot'.pipe) (mine : token.conn.id = client)
    {opening later : List Mail} (mail : slot'.thread.mail = opening ++ later)
    (honest : ∀ mail ∈ opening ++ later, mail.honest)
    (posted : Posted slot.thread.resource token.conn opening)
    (fair : ∀ mail ∈ later, mail.conn = client → mail.fair) :
    Tracked client
      { daemon with
        lockers := daemon.lockers.set locker slot', mail := daemon.mail ++ slot'.thread.mail } := by
  have inside : slot ∈ daemon.lockers := List.mem_of_getElem? slotted
  have afoot : ({ daemon with
      lockers := daemon.lockers.set locker slot', mail :=
          daemon.mail ++ slot'.thread.mail } : Daemon).afoot client = 0 := by
    have counted := @afoot_set client daemon locker slot slot' slotted
      (daemon.mail ++ slot'.thread.mail)
    have carried : slot.carries client = slot'.carries client + 1 := by
      simp [LockerSlot.carries, taken, mine]
    have one := tracked.single
    omega
  refine ⟨?_, ?_, by omega, fun some => absurd afoot some, ?_, ?_⟩
  · intro item member
    obtain old | new := List.mem_append.mp member
    · exact tracked.honest item old
    · exact honest item (mail ▸ new)
  · rw [mail, ← List.append_assoc]
    refine paced_fair ?_ fair
    cases posted with
    | told queued =>
      exact paced_fair tracked.paced fun item member _ => fun _ => .inl (queued item member).1
    | answered only single own step lock granted =>
      rw [single]
      refine paced_single tracked.paced fun deferred last => granted ?_
      refine tracked.handed slot inside token (by simp [taken]) mine ?_ deferred
      rw [step] at last
      unfold msgStepIncr at last ⊢
      omega
  · intro conn member same
    have here := conns_pos member same
    dsimp only at here
    unfold Daemon.afoot at afoot
    dsimp only at afoot
    omega
  · intro other member token' piped same
    have there := carries_pos piped same
    have sum := @carries_le_sum client _ _ member
    unfold Daemon.afoot at afoot
    omega

theorem tracked_turn (tracked : Tracked client daemon) {event : PollEvent}
    (slotted : daemon.lockers[locker]? = some slot) (asks : slot.asks client event) :
    Tracked client (daemonLocker daemon locker event) := by
  simp only [daemonLocker, slotted]
  cases turned asks with
  | idle goes same =>
    obtain ⟨new, mail, posted⟩ := goes.mail
    refine tracked_quiet tracked slotted goes.capacity goes.hosts ?_ ?_ ?_
    · rw [mail]
      exact posted
    · rw [LockerSlot.carries, LockerSlot.carries, same]
    · rw [same]
      exact List.Subset.refl _
  | took token opened goes taken honest posted capacity hosts =>
    obtain ⟨new, mail, fine⟩ := goes.mail
    by_cases mine : token.conn.id = client
    · refine tracked_arrived tracked slotted taken mine mail ?_ posted fun item member same =>
        ((fine item member).2 same).1
      intro item member
      obtain first | later := List.mem_append.mp member
      · exact honest item first
      · exact (fine item later).1
    · have held : opened.hosts client → slot.thread.hosts client :=
        fun hosted => (hosts hosted).resolve_right mine
      refine tracked_quiet tracked slotted (goes.capacity.trans capacity)
        (held ∘ goes.hosts) ?_ ?_ ?_
      · intro item member
        rw [mail] at member
        obtain first | later := List.mem_append.mp member
        · refine ⟨honest item first, fun same => ?_⟩
          cases posted with
          | told queued =>
            obtain ⟨ok, waiting⟩ := queued item first
            exact ⟨fun _ => .inl ok, .inr (same ▸ waiting)⟩
          | answered only single own step lock granted =>
            obtain rfl : item = only := by simpa [single] using first
            exact absurd (own.symm.trans same) mine
        · exact ⟨(fine item later).1, fun same =>
            ⟨((fine item later).2 same).1, held ((fine item later).2 same).2⟩⟩
      · simp [LockerSlot.carries, taken, mine]
      · rw [taken]
        exact List.subset_cons_self _ _

end

section

variable {decode : Name → Name} {client : ConnId} {daemon : Daemon} {id : Nat} {revents : Revents}

theorem suits_of_waiting {name : Name} {resource : Resource} {conn : Conn}
    (init : resourceInit (rsrcGetType name) name = .ok resource)
    (waits : conn.waitsFor resource = true) (patient : conn.msg.lock8.wait ≠ 0)
    (modest : ¬conn.msg.overAsks) : resource.suits conn.msg := by
  refine ⟨patient, fun total limited exceeds => modest ?_⟩
  simp only [Conn.waitsFor, Bool.and_eq_true, Option.any_eq_true] at waits
  obtain ⟨_, asked, named, compared⟩ := waits
  obtain ⟨numeric, rfl, number⟩ := resourceInit_capacity init compared limited
  exact ⟨asked, total, named, numeric, number, exceeds⟩

theorem tracked_serve (tracked : Tracked client daemon)
    (genuine : Genuine decode client daemon id revents)
    (modest : Modest decode client daemon id revents) :
    Tracked client (acceptLoopServe decode daemon id revents).daemon := by
  refine acceptLoopServe_invariant daemon id revents tracked fun reached act tracked legal => ?_
  cases legal with
  | close closed => exact tracked_close tracked closed
  | join conn listening same accepted state sockfd tls polled made =>
    refine tracked_join tracked made fun mine => ?_
    rw [same]
    exact genuine.fresh listening (mine ▸ accepted)
  | parse conn same heard =>
    obtain ⟨_, old, feed, present, arrived, _, rfl⟩ := heard
    subst same
    refine tracked.setConn present rfl fun mine stepped => ?_
    have asked := (genuine.request old feed present mine arrived).2
    rw [asked] at stepped
    simp [msgStepIncr] at stepped
  | garble conn old feed same _ present arrived broken spoilt =>
    have identity : conn.id = old.id := by rw [spoilt]
    subst same
    refine tracked.setConn present identity fun mine => ?_
    have parses := (genuine.request old feed present (identity.symm.trans mine) arrived).1
    rw [broken] at parses
    cases parses
  | answer conn rc name heard present requests lockers answers =>
    refine tracked_answer tracked present (by cases answers <;> simp) fun mine defers => ?_
    obtain ⟨_, old, feed, standing, arrived, _, rfl⟩ := heard
    cases answers with
    | unknown => simp [Rc.defers] at defers
    | hurried => simp [Rc.defers] at defers
    | incubated type free create wait =>
      exact ⟨wait, modest old feed name standing mine arrived requests
        (.incubated type free create wait)⟩
  | start conn name resource starts =>
    exact tracked_start tracked genuine.pipe (resourceInit_waiting starts.init)
  | spend position locker conn => exact tracked_spend tracked locker conn
  | drop position locker conn moves =>
    exact tracked_remove (tracked_spend tracked locker conn) moves.present.2
  | hand position locker conn moves =>
    have spent := tracked_spend tracked locker conn
    cases moves with
    | route locker slot conn name _ present requests slotted _ =>
      refine tracked_hand spent present (spend_slotted slotted conn) fun _ stepped => ?_
      rw [requests.2.2.2.1] at stepped
      simp [msgStepIncr] at stepped
    | hatch position locker slot conn requester name _ present _ slotted _ starts waits =>
      refine tracked_hand spent present (spend_slotted slotted conn) fun mine stepped deferred => ?_
      obtain ⟨patient, bounded⟩ := tracked.incubated conn
        (List.mem_of_getElem? present) mine stepped deferred
      exact suits_of_waiting starts.init waits patient bounded

theorem tracked_cleaned (tracked : Tracked client daemon) : Tracked client daemon.cleaned := by
  have fewer := connsClean_subperm daemon.conns
  apply tracked.of_conns
  · rw [List.count_eq_countP, List.count_eq_countP, List.countP_map, List.countP_map]
    exact fewer.countP_le _
  · exact fun conn member => tracked.incubated conn (fewer.subset member)

theorem tracked_checked (tracked : Tracked client daemon) (closed : List Bool) :
    Tracked client { daemon with lockers := (acceptLoopChklockers daemon.lockers closed).2 } := by
  obtain ⟨kept, shorter, checked⟩ := acceptLoopChklockers_checked daemon.lockers closed
  refine tracked.of_alike shorter (checked.imp fun slot slot' same => ?_)
  cases same with
  | kept => exact ⟨rfl, rfl⟩
  | retired => exact ⟨rfl, rfl⟩

theorem tracked_start_up (multicast tlsCheckPeerId : Bool) :
    Tracked client (daemonStart multicast tlsCheckPeerId) := by
  refine ⟨by simp [daemonStart], .nil, ?_, by simp [daemonStart], ?_, by simp [daemonStart]⟩
  · have distinct : ((daemonStart multicast tlsCheckPeerId).conns.map Conn.id).Nodup := by
      cases multicast <;> simp [daemonStart, connInit]
    exact List.nodup_iff_count_le_one.mp distinct client
  · intro conn member _ stepped
    have silent : conn.lastStep = 0 := by
      cases multicast <;> simp [daemonStart] at member
      · rw [member]
        rfl
      · obtain rfl | rfl := member <;> rfl
    rw [silent] at stepped
    simp [msgStepIncr] at stepped

end

end Flom
