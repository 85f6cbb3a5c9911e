import Flom.ResourceGrant

set_option autoImplicit false

namespace Flom

open Scan

inductive Key where
  | whole (name : Name)
  | level (label : Name)
deriving DecidableEq, Repr

def Key.accepts (key : Key) (name : Name) : Bool :=
  match key with
  | .whole own => own = name
  | .level label => name.head? = some hierResourceSeparator && (hierLevels name).head? = some label

def Resource.key : Resource → Key
  | .simple rsrc => .whole rsrc.name
  | .numeric rsrc => .whole rsrc.name
  | .set rsrc => .whole rsrc.name
  | .hier rsrc => .level rsrc.data.root.label
  | .sequence rsrc => .whole rsrc.name
  | .timestamp rsrc => .whole rsrc.name

theorem resourceCompareName_key (resource : Resource) (name : Name) :
    resourceCompareName resource name = resource.key.accepts name := by
  cases resource <;> rfl

theorem hierLabel_preserved (label name : Name) :
    Preserved (hierManager name).toOps (fun data => data.root.label = label) fun _ => True where
  take data _ same _ _ := (resourceHierAddLocker_label data _ _).trans same
  fail data _ same _ _ := (resourceHierAddLocker_label data _ _).trans same
  skip _ _ same := same

theorem hierCollect_label (cleaned : Cleaned HierData HierWait) :
    (hierCollect cleaned).rsrc.data.root.label = cleaned.rsrc.data.root.label := by
  unfold hierCollect
  split
  · exact resourceHierGc_label _
  · rfl

theorem resourceClean_key (resource : Resource) (conn : ConnId) (env : Env) :
    (resourceClean resource conn env).resource.key = resource.key := by
  cases resource with
  | hier rsrc =>
    have sound := rsrcClean_sound (hierLabel_preserved rsrc.data.root.label rsrc.name)
      (fun data conn freed same released => (hierRelease_label released).trans same) rsrc conn
        env.sends
      ⟨rfl, fun _ _ => trivial⟩
    exact congrArg Key.level ((hierCollect_label _).trans sound.data)
  | simple rsrc | numeric rsrc | set rsrc | sequence rsrc | timestamp rsrc => rfl

theorem resourceTimeout_key (resource : Resource) (env : Env) :
    (resourceTimeout resource env).resource.key = resource.key := by
  cases resource with
  | timestamp rsrc =>
    simp only [resourceTimeout, resourceTimestampTimeout]
    split_ifs <;> rfl
  | simple rsrc | numeric rsrc | set rsrc | hier rsrc | sequence rsrc => rfl

theorem unlocking_key {resource target : Resource} {conn : ConnId} {msg : Msg}
    (accepted : resource.unlocking conn msg = some target) : target.key = resource.key := by
  obtain rfl | ⟨_, _, rfl, rfl, _⟩ | ⟨_, _, rfl, rfl, _⟩ := unlocking_cases accepted <;> rfl

theorem resourceInmsg_key (resource : Resource) (conn : ConnId) (lastStep : Int) (msg : Msg)
    (env : Env) :
    (resourceInmsg resource conn lastStep msg env).resource.key = resource.key := by
  apply resourceInmsg_keeps Resource.key
  · intro resource conn lastStep msg env lock
    cases resource with
    | hier rsrc =>
      simp only [resourceInmsg, resourceHierInmsg, lock, answerOfInmsg]
      split
      · next name _ =>
        have sound := rsrcLock_sound (hierLabel_preserved rsrc.data.root.label rsrc.name)
          ⟨⟨conn, msg.lock8.mode, name⟩, msg.lock8.wait ≠ 0, .lockBusy, fun _ => none⟩ rsrc lastStep
            msg
          ⟨rfl, fun _ _ => trivial⟩ trivial
        exact congrArg Key.level sound.data
      · rfl
    | simple rsrc =>
      simp only [resourceInmsg, resourceSimpleInmsg, lock, answerOfInmsg, Resource.key,
        rsrcLock_name]
    | numeric rsrc =>
      simp only [resourceInmsg, resourceNumericInmsg, lock, answerOfInmsg, Resource.key,
        rsrcLock_name]
    | set rsrc =>
      simp only [resourceInmsg, resourceSetInmsg, lock, answerOfInmsg, Resource.key, rsrcLock_name]
    | sequence rsrc =>
      simp only [resourceInmsg, resourceSequenceInmsg, lock, answerOfInmsg, Resource.key,
        rsrcLock_name]
    | timestamp rsrc =>
      simp only [resourceInmsg, resourceTimestampInmsg, lock, answerOfInmsg, Resource.key,
        rsrcLock_name]
      rfl
  · exact fun _ _ _ _ accepted => unlocking_key accepted
  · exact resourceClean_key

end Flom
