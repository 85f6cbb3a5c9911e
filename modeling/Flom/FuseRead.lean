import Flom.Fuse
import Flom.RamRun

set_option autoImplicit false

namespace Flom

open NaryTree Paged

def dirEntries (ino parent : Nat) (children : List GNode) : List (Name × Nat) :=
  (['.'], ino) :: (['.', '.'], parent) :: children.map fun child =>
    (child.data.name, child.data.ino)

section

variable {B : Type} {direntry : Direntry B} {root found : GNode} {ino : Nat}

theorem ramTreeFindParent_inside (once : (root.keys RamNode.ino).Nodup)
    (inside : found ∈ root.preorder) :
    ∃ parent ∈ root.preorder, ramTreeFindParent root found = some parent := by
  obtain ⟨frames, rfl⟩ := exists_plug inside
  cases frames with
  | nil => exact ⟨found, found.mem_preorder_self, if_pos rfl⟩
  | cons frame outer =>
    exact ⟨.node frame.data (frame.before ++ found :: frame.after), mem_preorder_plug outer _,
      ramTreeFindParent_at once⟩

theorem fuseReaddir_window (sound : direntry.Sound)
    (here : ramTreeFind root (fusePointer ino) = some found) (dir : found.data.isDir = true)
    {parent : GNode} (above : ramTreeFindParent root found = some parent) (size off : Nat) :
    FuseReply.bytes (fuseReaddir direntry root ino size off) =
      ((direntry.layout 0 (dirEntries ino parent.data.ino found.children)).drop off).take size := by
  have children : ramTreeRetrieveChildren root (fusePointer ino) =
      found.children.map fun child => (child.data.name, child.data.ino) := by
    rw [ramTreeRetrieveChildren, here]
  rw [fuseReaddir, here]
  dsimp only
  rw [if_pos dir, above]
  dsimp only
  rw [replyBufLimited_window, children, foldl_add _ _ sound]
  rfl

theorem growing_directory_listed (sound : direntry.Sound) {roots founds : Nat → GNode}
    {parent fuel : Nat} {sizes : Nat → Nat} {whole : List (Name × Nat)}
    (here : ∀ off, ramTreeFind (roots off) (fusePointer ino) = some (founds off))
    (dir : ∀ off, (founds off).data.isDir = true)
    (above : ∀ off, (ramTreeFindParent (roots off) (founds off)).map
      (fun parent => parent.data.ino) = some parent)
    (grows : ∀ off later, off ≤ later →
      dirEntries ino parent (founds off).children <+: dirEntries ino parent (founds later).children)
    (within : ∀ off, dirEntries ino parent (founds off).children <+: whole)
    (fits : ∀ entry ∈ whole, ∀ off, direntry.size entry ≤ sizes off)
    (enough : whole.length < fuel) :
    ∃ last, direntry.readAll (fun off => FuseReply.bytes
      (fuseReaddir direntry (roots off) ino (sizes off) off)) fuel 0 =
        some (dirEntries ino parent (founds last).children) ∧
      last = direntry.total (dirEntries ino parent (founds last).children) := by
  have served (off : Nat) : FuseReply.bytes (fuseReaddir direntry (roots off) ino (sizes off) off) =
      ((direntry.layout 0 (dirEntries ino parent (founds off).children)).drop off).take
        (sizes off) := by
    obtain ⟨node, found, rfl⟩ := Option.map_eq_some_iff.mp (above off)
    exact fuseReaddir_window sound (here off) (dir off) found (sizes off) off
  obtain ⟨rest, reads, same⟩ := @readAll_rest B _ direntry sound whole
    (fun off => dirEntries ino parent (founds off).children) _ sizes served within grows fits
      [] List.nil_prefix fuel
    (by simpa)
  rw [List.nil_append] at same
  exact ⟨direntry.total rest, by rw [← same]; exact reads, by rw [← same]⟩

theorem fuseList_whole (sound : direntry.Sound) (once : (root.keys RamNode.ino).Nodup)
    (here : ramTreeFind root (fusePointer ino) = some found) (dir : found.data.isDir = true)
    {sizes : Nat → Nat} (fits : ∀ parent, ∀ entry ∈ dirEntries ino parent found.children, ∀ off,
      direntry.size entry ≤ sizes off) {fuel : Nat} (enough : found.children.length + 2 < fuel) :
    ∃ parent, fuseList direntry root sizes fuel ino = some
      (dirEntries ino parent found.children) := by
  obtain ⟨parent, _, above⟩ := ramTreeFindParent_inside once (ramTreeFind_inside here)
  refine ⟨parent.data.ino, readAll_whole sound ?_ (fits parent.data.ino)
    (by simpa [dirEntries] using enough)⟩
  exact fun off => fuseReaddir_window sound here dir above (sizes off) off

end

end Flom
