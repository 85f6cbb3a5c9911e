import Flom.Conns
import Flom.Lib.Run

set_option autoImplicit false

namespace Flom

open Run

def connsAddConn (conns : List Conn) (conn : Conn) : List Conn := conns ++ [conn]

def connsImport (conns : List Conn) (conn : Conn) : List Conn := conns ++ [conn]

def connsCleanDeleting : Nat → Nat → List Conn → List Conn × List Conn
  | 0, _, conns => (conns, [])
  | fuel + 1, id, conns =>
    match conns[id]? with
    | none => (conns, [])
    | some conn =>
      if conn.state = .remove then
        let cleaned := connsCleanDeleting fuel id (removeIndexFast conns id)
        (cleaned.1, conn :: cleaned.2)
      else connsCleanDeleting fuel (id + 1) conns

def connSockfd (opened : ConnId → Int) (conn : Conn) : Int :=
  if conn.sockfd then opened conn.id else -1

def connsGetFds (opened : ConnId → Int) (allocated : Bool) (conns : List Conn) :
    Option (List Int) :=
  if allocated then some (conns.map (connSockfd opened)) else none

structure ConnsTable where
  conns : List Conn
  transferred : List ConnId
  deleted : List ConnId

def connsInit : ConnsTable := ⟨[], [], []⟩

inductive ConnsCall where
  | addConn (conn : Conn)
  | importConn (conn : Conn)
  | closeFd (id : Nat) (closed : Bool)
  | trnsFd (id : Nat)
  | clean

def connsStep (table : ConnsTable) : ConnsCall → ConnsTable
  | .addConn conn => { table with conns := connsAddConn table.conns conn }
  | .importConn conn => { table with conns := connsImport table.conns conn }
  | .closeFd id closed => { table with conns := (connsCloseFd table.conns id closed).2 }
  | .trnsFd id =>
    { table with
      conns := (connsTrnsFd table.conns id).2
      transferred := table.transferred ++ table.conns[id]?.toList.map Conn.id }
  | .clean =>
    let cleaned := connsCleanDeleting table.conns.length 0 table.conns
    { table with conns := cleaned.1, deleted := table.deleted ++ cleaned.2.map Conn.id }

def ConnsCall.added : ConnsCall → List ConnId
  | .addConn conn | .importConn conn => [conn.id]
  | _ => []

def connsAdded (calls : List ConnsCall) : List ConnId := calls.flatMap ConnsCall.added

theorem connsCleanDeleting_fst (fuel id : Nat) (conns : List Conn) :
    (connsCleanDeleting fuel id conns).1 = connsCleanFrom fuel id conns := by
  induction fuel generalizing id conns with
  | zero => rfl
  | succ fuel ih =>
    rw [connsCleanDeleting, connsCleanFrom]
    cases conns[id]? with
    | none => rfl
    | some conn =>
      dsimp only
      split_ifs
      · exact ih id (removeIndexFast conns id)
      · exact ih (id + 1) conns

theorem connsCleanDeleting_perm (fuel id : Nat) (conns : List Conn) :
    conns.Perm ((connsCleanDeleting fuel id conns).1 ++ (connsCleanDeleting fuel id conns).2) := by
  induction fuel generalizing id conns with
  | zero => simp [connsCleanDeleting]
  | succ fuel ih =>
    rw [connsCleanDeleting]
    split
    · simp
    · next conn present =>
      split
      · exact (removeIndexFast_perm present).trans
          (((ih _ _).cons conn).trans List.perm_middle.symm)
      · exact ih _ _

theorem connsClean_deletes (conns : List Conn) :
    let cleaned := connsCleanDeleting conns.length 0 conns
    cleaned.1 = connsClean conns ∧ cleaned.2.Perm
    (conns.filter fun conn => decide (conn.state = .remove)) := by
  intro cleaned
  have left : cleaned.1 = connsClean conns := connsCleanDeleting_fst _ _ _
  refine ⟨left, ?_⟩
  have kept := connsClean_perm conns
  rw [← left] at kept
  have split : (conns.filter (fun conn => decide (conn.state = .remove)) ++
      conns.filter fun conn => !decide (conn.state = .remove)).Perm conns :=
      List.filter_append_perm _ _
  have other : (conns.filter fun conn => !decide (conn.state = .remove)) =
      conns.filter fun conn => decide (conn.state ≠ .remove) := by
    simp
  rw [other] at split
  have both : (cleaned.1 ++ cleaned.2).Perm
      (cleaned.1 ++ conns.filter fun conn => decide (conn.state = .remove)) := by
    calc (cleaned.1 ++ cleaned.2).Perm conns := (connsCleanDeleting_perm _ _ _).symm
      _ |>.Perm _ := split.symm
      _ |>.Perm _ := List.perm_append_comm
      _ |>.Perm _ := kept.symm.append_right _
  exact (List.perm_append_left_iff _).mp both

def ConnsTable.places (table : ConnsTable) (id : ConnId) : Nat :=
  (table.conns.map Conn.id).count id + table.transferred.count id + table.deleted.count id

theorem connsCloseFd_ids (conns : List Conn) (id : Nat) (closed : Bool) :
    (connsCloseFd conns id closed).2.map Conn.id = conns.map Conn.id := by
  unfold connsCloseFd
  split
  · next conn present =>
    obtain ⟨bound, rfl⟩ := List.getElem?_eq_some_iff.mp present
    have mapped : id < (conns.map Conn.id).length := by rwa [List.length_map]
    have here : conns[id].id = (conns.map Conn.id)[id] := (List.getElem_map Conn.id).symm
    dsimp only
    rw [List.map_set, connTerminate_id, here, List.set_getElem_self]
  · rfl

theorem connsTrnsFd_perm (conns : List Conn) (id : Nat) :
    (conns.map Conn.id).Perm
    ((connsTrnsFd conns id).2.map Conn.id ++ conns[id]?.toList.map Conn.id) := by
  unfold connsTrnsFd
  split_ifs with bound
  · have present := List.getElem?_eq_getElem bound
    rw [present]
    exact ((removeIndexFast_perm present).map Conn.id).trans (List.perm_append_singleton _ _).symm
  · rw [List.getElem?_eq_none (not_lt.mp bound)]
    simp

theorem connsStep_places (table : ConnsTable) (call : ConnsCall) (id : ConnId) :
    (connsStep table call).places id = table.places id + call.added.count id := by
  cases call with
  | addConn conn | importConn conn =>
    simp only [connsStep, connsAddConn, connsImport, ConnsCall.added, ConnsTable.places,
      List.map_append, List.map_cons,
      List.map_nil, List.count_append]
    omega
  | closeFd position closed =>
    simp only [connsStep, ConnsCall.added, ConnsTable.places, connsCloseFd_ids, List.count_nil,
      Nat.add_zero]
  | trnsFd position =>
    have moved := (connsTrnsFd_perm table.conns position).count_eq id
    rw [List.count_append] at moved
    simp only [connsStep, ConnsCall.added, ConnsTable.places, List.count_append, List.count_nil]
    omega
  | clean =>
    have cleaned := ((connsCleanDeleting_perm table.conns.length 0 table.conns).map
      Conn.id).count_eq id
    rw [List.map_append, List.count_append] at cleaned
    simp only [connsStep, ConnsCall.added, ConnsTable.places, List.count_append, List.count_nil]
    omega

theorem connsRun_places (table : ConnsTable) (calls : List ConnsCall) (id : ConnId) :
    (run connsStep table calls).places id = table.places id + (connsAdded calls).count id := by
  induction calls generalizing table with
  | nil => rfl
  | cons call rest ih =>
    have more : connsAdded (call :: rest) = call.added ++ connsAdded rest := List.flatMap_cons
    rw [run, ih, connsStep_places, more, List.count_append, Nat.add_assoc]

theorem connsStep_first {table : ConnsTable} {call : ConnsCall} {conn : Conn}
    (first : table.conns[0]? = some conn) (behind : ∀ id, call = .trnsFd id → 1 ≤ id) :
    (∃ same, (connsStep table call).conns[0]? = some same ∧ same.id = conn.id ∧
        (same.state = conn.state ∨ ∃ closed, call = .closeFd 0 closed)) ∨
      call = .clean ∧ conn.state = .remove := by
  have bound := (List.getElem?_eq_some_iff.mp first).1
  cases call with
  | addConn other | importConn other =>
    refine .inl ⟨conn, ?_, rfl, .inl rfl⟩
    exact (List.getElem?_append_left bound).trans first
  | closeFd id closed =>
    simp only [connsStep, connsCloseFd]
    by_cases zero : id = 0
    · subst zero
      refine .inl ⟨(connTerminate conn closed).2, ?_, connTerminate_id conn closed,
        .inr ⟨closed, rfl⟩⟩
      rw [first]
      exact List.getElem?_set_self bound
    · refine .inl ⟨conn, ?_, rfl, .inl rfl⟩
      split
      · exact (List.getElem?_set_ne zero).trans first
      · exact first
  | trnsFd id =>
    have later := behind id rfl
    refine .inl ⟨conn, ?_, rfl, .inl rfl⟩
    simp only [connsStep, connsTrnsFd]
    split_ifs with inside
    · exact (removeIndexFast_getElem? inside later).trans first
    · exact first
  | clean =>
    by_cases gone : conn.state = .remove
    · exact .inr ⟨rfl, gone⟩
    · refine .inl ⟨conn, ?_, rfl, .inl rfl⟩
      simp only [connsStep, (connsClean_deletes table.conns).1]
      exact connsClean_head first gone

def ClosedAndCleaned (table : ConnsTable) (conn : Conn) (calls : List ConnsCall) : Prop :=
  ∃ earlier later closed, calls = earlier ++ .clean :: later ∧
    (run connsStep table earlier).conns[0]? = some closed ∧
    closed.id = conn.id ∧ closed.state = .remove ∧
      (conn.state = .remove ∨ ∃ outcome, ConnsCall.closeFd 0 outcome ∈ earlier)

theorem connsRun_first {table : ConnsTable} {calls : List ConnsCall} {conn : Conn}
    (first : table.conns[0]? = some conn) (behind : ∀ id, ConnsCall.trnsFd id ∈ calls → 1 ≤ id) :
    (∃ same, (run connsStep table calls).conns[0]? = some same ∧ same.id = conn.id) ∨
      ClosedAndCleaned table conn calls := by
  induction calls generalizing table conn with
  | nil => exact .inl ⟨conn, first, rfl⟩
  | cons call rest ih =>
    obtain ⟨same, here, named, changed⟩ | ⟨rfl, gone⟩ :=
      @connsStep_first _ call _ first fun id same => behind id (same ▸ List.mem_cons_self)
    · have later := ih here fun id member => behind id (List.mem_cons_of_mem call member)
      obtain ⟨other, there, alike⟩ | ⟨earlier, after, closed, split, there, alike, gone, reason⟩ :=
        later
      · exact .inl ⟨other, there, alike.trans named⟩
      · refine .inr ⟨call :: earlier, after,
          closed, by rw [split]; rfl, there, alike.trans named, gone, ?_⟩
        obtain before | ⟨outcome, member⟩ := reason
        · obtain kept | ⟨outcome, rfl⟩ := changed
          · exact .inl (kept ▸ before)
          · exact .inr ⟨outcome, List.mem_cons_self⟩
        · exact .inr ⟨outcome, List.mem_cons_of_mem call member⟩
    · exact .inr ⟨[], rest, conn, rfl, first, rfl, gone, .inl gone⟩

def CleanExact (table : ConnsTable) : Prop :=
  ∃ gone, (connsStep table .clean).deleted = table.deleted ++ gone ∧
    gone.Perm ((table.conns.filter fun conn => decide (conn.state = .remove)).map Conn.id) ∧
    (connsStep table .clean).conns.Perm
      (table.conns.filter fun conn => decide (conn.state ≠ .remove)) ∧
    (connsStep table .clean).transferred = table.transferred

theorem connsStep_cleanExact (table : ConnsTable) : CleanExact table := by
  obtain ⟨left, deleted⟩ := connsClean_deletes table.conns
  refine ⟨_, rfl, deleted.map Conn.id, ?_, rfl⟩
  simp only [connsStep, left]
  exact connsClean_perm table.conns

theorem connsGetFds_carries {opened : ConnId → Int} {allocated : Bool} {conns : List Conn}
    {fds : List Int} (filled : connsGetFds opened allocated conns = some fds) (i : Nat) :
    fds[i]? = conns[i]?.map (connSockfd opened) := by
  unfold connsGetFds at filled
  split_ifs at filled
  cases filled
  exact List.getElem?_map

theorem conns_exactly_once (calls : List ConnsCall)
    (behind : ∀ id, ConnsCall.trnsFd id ∈ calls → 1 ≤ id) :
    let table := run connsStep connsInit calls
    (∀ id, table.places id = (connsAdded calls).count id) ∧
      CleanExact table ∧
      (∀ earlier later conn, calls = earlier ++ later →
        (run connsStep connsInit earlier).conns[0]? = some conn →
        (∃ same, table.conns[0]? = some same ∧ same.id = conn.id) ∨
          ClosedAndCleaned (run connsStep connsInit earlier) conn later) ∧
      ∀ opened allocated fds, connsGetFds opened allocated table.conns = some fds →
        ∀ i : Nat, fds[i]? = table.conns[i]?.map (connSockfd opened) := by
  intro table
  have places (id : ConnId) : table.places id = (connsAdded calls).count id := by
    have none : connsInit.places id = 0 := rfl
    rw [connsRun_places, none, Nat.zero_add]
  refine ⟨places, connsStep_cleanExact table, ?_, fun _ _ _ filled => connsGetFds_carries filled⟩
  intro earlier later conn split first
  have reached : table = run connsStep (run connsStep connsInit earlier) later := by
    rw [← run_append, ← split]
  rw [reached]
  exact connsRun_first first fun id member =>
    behind id (split ▸ List.mem_append_right earlier member)

def busyCalls : List ConnsCall :=
  [.addConn (connInit 0 false true), .addConn (connInit 1 false true),
    .importConn (connInit 2 false true), .trnsFd 1,
    .closeFd 0 true, .clean]

theorem conns_exactly_once_busy :
    let table := run connsStep connsInit busyCalls
    table.conns.map Conn.id = [2] ∧ table.transferred = [1] ∧ table.deleted = [0] ∧
      ((∀ id, table.places id = (connsAdded busyCalls).count id) ∧
        CleanExact table ∧
        (∀ earlier later conn, busyCalls = earlier ++ later →
          (run connsStep connsInit earlier).conns[0]? = some conn →
          (∃ same, table.conns[0]? = some same ∧ same.id = conn.id) ∨
            ClosedAndCleaned (run connsStep connsInit earlier) conn later) ∧
        ∀ opened allocated fds, connsGetFds opened allocated table.conns = some fds →
          ∀ i : Nat, fds[i]? = table.conns[i]?.map (connSockfd opened)) := by
  have behind : ∀ id, ConnsCall.trnsFd id ∈ busyCalls → 1 ≤ id := by
    intro id member
    simp only [busyCalls, List.mem_cons, reduceCtorEq, false_or, or_false, List.not_mem_nil,
      ConnsCall.trnsFd.injEq] at member
    omega
  exact ⟨by decide, by decide, by decide, conns_exactly_once busyCalls behind⟩

end Flom
