import Flom.Msg
import Mathlib.Data.List.Basic
import Mathlib.Data.List.Perm.Subperm

set_option autoImplicit false

namespace Flom

inductive ConnState where
  | daemon | locker | remove
deriving DecidableEq, Repr

structure Tls where
  commonName : Option Name
deriving DecidableEq, Repr

structure Conn where
  id : ConnId
  state : ConnState
  sockfd : Bool
  wait : Bool
  lastStep : Int
  msg : Msg
  datagram : Bool
  tls : Option Tls
deriving DecidableEq, Repr

def connInit (id : ConnId) (datagram mainThread : Bool) : Conn where
  id := id
  state := if mainThread then .daemon else .locker
  sockfd := true
  wait := false
  lastStep := 0
  msg := msgInit
  datagram := datagram
  tls := none

/-- g_ptr_array_remove_index_fast: the last element takes the place of the removed one. -/
def removeIndexFast (conns : List Conn) (id : Nat) : List Conn :=
  match conns.getLast? with
  | some last => (conns.set id last).dropLast
  | none => conns

def connsCleanFrom : Nat → Nat → List Conn → List Conn
  | 0, _, conns => conns
  | fuel + 1, id, conns =>
    match conns[id]? with
    | none => conns
    | some conn =>
      if conn.state = .remove then connsCleanFrom fuel id (removeIndexFast conns id)
      else connsCleanFrom fuel (id + 1) conns

def connsClean (conns : List Conn) : List Conn := connsCleanFrom conns.length 0 conns

def connTerminate (conn : Conn) (closed : Bool) : Rc × Conn :=
  if conn.state = .remove then (.ok, conn)
  else if conn.sockfd = false then (.ok, { conn with state := .remove })
  else if closed then (.ok, { conn with state := .remove, sockfd := false })
  else (.closeError, { conn with state := .remove })

def Conn.terminated (conn : Conn) : Conn := (connTerminate conn true).2

-- `send` is what the open socket answers.
def connSend (conn : Conn) (send : Rc) : Rc :=
  if conn.sockfd then send else if conn.tls.isSome then .sslWriteError else .getsockoptError

def connsCloseFd (conns : List Conn) (id : Nat) (closed : Bool) : Rc × List Conn :=
  match conns[id]? with
  | some conn =>
    let terminated := connTerminate conn closed
    (terminated.1, conns.set id terminated.2)
  | none => (.outOfRange, conns)

def connsSetEvents (conns : List Conn) : Rc := if conns.all Conn.sockfd then .ok else .objCorrupted

def connsTrnsFd (conns : List Conn) (id : Nat) : Rc × List Conn :=
  if id < conns.length then (.ok, removeIndexFast conns id) else (.outOfRange, conns)

theorem connTerminate_snd (conn : Conn) (closed : Bool) :
    ∃ sockfd, (connTerminate conn closed).2 = { conn with state := .remove, sockfd := sockfd } := by
  unfold connTerminate
  split_ifs with gone
  · exact ⟨conn.sockfd, by rw [← gone]⟩
  all_goals exact ⟨_, rfl⟩

theorem connTerminate_state (conn : Conn) (closed : Bool) :
    (connTerminate conn closed).2.state = .remove := by
  obtain ⟨_, same⟩ := connTerminate_snd conn closed
  rw [same]

theorem connTerminate_id (conn : Conn) (closed : Bool) :
    (connTerminate conn closed).2.id = conn.id := by
  obtain ⟨_, same⟩ := connTerminate_snd conn closed
  rw [same]

theorem connTerminate_true (conn : Conn) : connTerminate conn true = (.ok, conn.terminated) := by
  unfold Conn.terminated connTerminate
  simp only [if_true]
  split_ifs <;> rfl

theorem removeIndexFast_of_last {conns : List Conn} {last : Conn} (id : Nat)
    (final : conns.getLast? = some last) :
    removeIndexFast conns id = (conns.set id last).dropLast := by
  rw [removeIndexFast, final]

theorem removeIndexFast_getElem? {conns : List Conn} {id other : Nat} (bound : id < conns.length)
    (before : other < id) : (removeIndexFast conns id)[other]? = conns[other]? := by
  have nonempty : conns ≠ [] := List.ne_nil_of_length_pos (by omega)
  rw [removeIndexFast_of_last id (List.getLast?_eq_some_getLast nonempty), List.getElem?_dropLast,
    if_pos (by rw [List.length_set]; omega), List.getElem?_set_ne (by omega)]

theorem removeIndexFast_split (front behind : List Conn) (conn : Conn) :
    ∃ rest, removeIndexFast (front ++ conn :: behind) front.length = front ++ rest ∧
      rest.Perm behind := by
  rcases List.eq_nil_or_concat' behind with rfl | ⟨middle, last, rfl⟩
  · refine ⟨[], ?_, .refl _⟩
    simp [removeIndexFast]
  · refine ⟨last :: middle, ?_, (List.perm_append_singleton last middle).symm⟩
    have final : (front ++ conn :: (middle ++ [last])).getLast? = some last := by
      rw [← List.cons_append, ← List.append_assoc, List.getLast?_concat]
    rw [removeIndexFast_of_last _ final, List.set_append_right _ _ (Nat.le_refl _), Nat.sub_self,
      List.set_cons_zero, ← List.cons_append, ← List.append_assoc, List.dropLast_concat]

theorem removeIndexFast_perm {conns : List Conn} {id : Nat} {conn : Conn}
    (present : conns[id]? = some conn) : conns.Perm (conn :: removeIndexFast conns id) := by
  obtain ⟨bound, found⟩ := List.getElem?_eq_some_iff.mp present
  have split : conns = conns.take id ++ conn :: conns.drop (id + 1) := by
    rw [← found, ← List.drop_eq_getElem_cons bound, List.take_append_drop]
  have length : (conns.take id).length = id := by
    rw [List.length_take, Nat.min_eq_left (Nat.le_of_lt bound)]
  obtain ⟨rest, removed, perm⟩ := removeIndexFast_split (conns.take id) (conns.drop (id + 1)) conn
  rw [← split, length] at removed
  rw [removed]
  calc
    conns.Perm (conns.take id ++ conn :: conns.drop (id + 1)) := .of_eq split
    _ |>.Perm (conn :: (conns.take id ++ conns.drop (id + 1))) := List.perm_middle
    _ |>.Perm (conn :: (conns.take id ++ rest)) := (perm.symm.append_left _).cons conn

theorem connsCleanFrom_perm (fuel : Nat) (front behind : List Conn)
    (enough : behind.length ≤ fuel) :
    (connsCleanFrom fuel front.length (front ++ behind)).Perm
      (front ++ behind.filter fun conn => decide (conn.state ≠ .remove)) := by
  induction fuel generalizing front behind with
  | zero =>
    obtain rfl := List.length_eq_zero_iff.mp (Nat.le_zero.mp enough)
    exact .refl _
  | succ fuel ih =>
    cases behind with
    | nil => simp [connsCleanFrom]
    | cons conn rest =>
      rw [List.length_cons] at enough
      have present : (front ++ conn :: rest)[front.length]? = some conn := by simp
      rw [connsCleanFrom, present]
      dsimp only
      by_cases gone : conn.state = .remove
      · obtain ⟨moved, removed, same⟩ := removeIndexFast_split front rest conn
        rw [if_pos gone, removed, List.filter_cons_of_neg (by simpa using gone)]
        exact (ih front moved (by rw [same.length_eq]; omega)).trans
          ((same.filter _).append_left front)
      · have kept := ih (front ++ [conn]) rest (by omega)
        rw [if_neg gone, List.filter_cons_of_pos (by simpa using gone)]
        simpa using kept

theorem connsClean_perm (conns : List Conn) :
    (connsClean conns).Perm (conns.filter fun conn => decide (conn.state ≠ .remove)) :=
  connsCleanFrom_perm conns.length [] conns le_rfl

theorem connsClean_subperm (conns : List Conn) : (connsClean conns).Subperm conns :=
  (connsClean_perm conns).subperm.trans List.filter_sublist.subperm

theorem mem_connsClean {conns : List Conn} {conn : Conn} :
    conn ∈ connsClean conns ↔ conn ∈ conns ∧ conn.state ≠ .remove := by
  rw [(connsClean_perm conns).mem_iff, List.mem_filter, decide_eq_true_iff]

theorem connsCleanFrom_before (fuel id other : Nat) (conns : List Conn) (before : other < id) :
    (connsCleanFrom fuel id conns)[other]? = conns[other]? := by
  induction fuel generalizing id conns with
  | zero => rfl
  | succ fuel ih =>
    rw [connsCleanFrom]
    split
    · rfl
    · next conn present =>
      have bound := (List.getElem?_eq_some_iff.mp present).1
      split
      · rw [ih id _ before, removeIndexFast_getElem? bound before]
      · exact ih (id + 1) conns (by omega)

theorem connsClean_head {conns : List Conn} {conn : Conn} (first : conns[0]? = some conn)
    (alive : conn.state ≠ .remove) : (connsClean conns)[0]? = some conn := by
  obtain ⟨bound, _⟩ := List.getElem?_eq_some_iff.mp first
  obtain ⟨fuel, length⟩ := Nat.exists_eq_add_one_of_ne_zero (Nat.ne_of_gt bound)
  rw [connsClean, length, connsCleanFrom, first]
  simp only [alive, if_false]
  rw [connsCleanFrom_before _ _ _ _ (by omega), first]

end Flom
