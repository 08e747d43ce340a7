import SibylMemory.Library.Dialogues

/-!
# Files under names

A name leads to an inode, and a rename moves a name in one step. Every call but a test may fail and
leave the files as they are; a failed write may have written a part. An inode that a process made
belongs to it, and a temporary name is drawn once.
-/

namespace FileSystem

structure Path where
  parent : String
  name : String
  deriving DecidableEq

structure Inode (ι : Type) where
  content : String
  mode : Nat
  /-- written to the disk since its last change -/
  synced : Bool
  /-- the process that made it, if one of ours did -/
  writer : Option ι

structure Files (ι : Type) where
  names : Path → Option Nat
  inodes : Nat → Option (Inode ι)
  drawn : List Path
  named : ∀ p h, names p = some h → (inodes h).isSome = true

inductive FileCall where
  | mkdir (directory : String)
  | createTemporary (directory start : String)
  | write (handle : Nat) (text : String)
  | fsync (handle : Nat)
  | close (handle : Nat)
  | chmod (path : Path) (mode : Nat)
  | replace (source target : Path)
  | exists_ (path : Path)
  | unlink (path : Path)
  | openText (path : Path)
  | readAll (handle : Nat)

/-- An `OSError` by its class name, or what the call returns. -/
def FileCall.Reply : FileCall → Type
  | .createTemporary _ _ => Except String (Path × Nat)
  | .exists_ _ => Bool
  | .openText _ => Except String Nat
  | .readAll _ => Except String String
  | _ => Except String Unit

namespace Files
variable {ι : Type}

def read (s : Files ι) (p : Path) : Option String :=
  (s.names p).bind fun h => (s.inodes h).map Inode.content

/-- `mkstemp`: a new inode under a name that nothing has. -/
def create (s : Files ι) (i : ι) (p : Path) (h : Nat) : Files ι where
  names := Function.update s.names p (some h)
  inodes := Function.update s.inodes h (some ⟨"", 0o600, false, some i⟩)
  drawn := p :: s.drawn
  named q k hq := by
    by_cases hk : k = h
    · rw [hk, Function.update_self]
      rfl
    · rw [Function.update_of_ne hk]
      by_cases hqp : q = p
      · rw [hqp, Function.update_self] at hq
        exact absurd (Option.some.inj hq).symm hk
      · rw [Function.update_of_ne hqp] at hq
        exact s.named q k hq

def modify (s : Files ι) (h : Nat) (f : Inode ι → Inode ι) : Files ι where
  names := s.names
  inodes := Function.update s.inodes h ((s.inodes h).map f)
  drawn := s.drawn
  named q k hq := by
    by_cases hk : k = h
    · rw [hk, Function.update_self, Option.isSome_map]
      exact hk ▸ s.named q k hq
    · rw [Function.update_of_ne hk]
      exact s.named q k hq

/-- `rename`: the name of the target leads to the inode of the source. -/
def rename (s : Files ι) (source target : Path) : Files ι where
  names := Function.update (Function.update s.names source none) target (s.names source)
  inodes := s.inodes
  drawn := s.drawn
  named q k hq := by
    by_cases ht : q = target
    · rw [ht, Function.update_self] at hq
      exact s.named source k hq
    · rw [Function.update_of_ne ht] at hq
      by_cases hs : q = source
      · rw [hs, Function.update_self] at hq
        cases hq
      · rw [Function.update_of_ne hs] at hq
        exact s.named q k hq

def remove (s : Files ι) (p : Path) : Files ι where
  names := Function.update s.names p none
  inodes := s.inodes
  drawn := s.drawn
  named q k hq := by
    by_cases hp : q = p
    · rw [hp, Function.update_self] at hq
      cases hq
    · rw [Function.update_of_ne hp] at hq
      exact s.named q k hq

/-- What a call of process `i` may reply and do; `faulty` allows an `unlink` to fail. -/
def respond (faulty : Prop) (i : ι) (s : Files ι) : (c : FileCall) → c.Reply → Files ι → Prop
  | .mkdir _, _, s' => s' = s
  | .createTemporary _ _, .error _, s' => s' = s
  | .createTemporary directory start, .ok (p, h), s' =>
    (∃ random, p = ⟨directory, start ++ random⟩) ∧ s.names p = none ∧ p ∉ s.drawn ∧
      s.inodes h = none ∧ s' = s.create i p h
  | .write h text, .ok _, s' =>
    s' = s.modify h fun n => { n with content := n.content ++ text, synced := false }
  | .write h text, .error _, s' => ∃ part, part.toList <+: text.toList ∧
    s' = s.modify h fun n => { n with content := n.content ++ part, synced := false }
  | .fsync h, .ok _, s' => s' = s.modify h fun n => { n with synced := true }
  | .fsync _, .error _, s' => s' = s
  | .close h, _, s' => s' = s ∨ ∃ n part, s.inodes h = some n ∧ n.synced = false ∧
    s' = s.modify h fun n => { n with content := n.content ++ part }
  | .chmod p mode, .ok _, s' =>
    ∃ h, s.names p = some h ∧ s' = s.modify h fun n => { n with mode := mode }
  | .chmod _ _, .error _, s' => s' = s
  | .replace source target, .ok _, s' => (s.names source).isSome = true ∧ s' = s.rename source target
  | .replace _ _, .error _, s' => s' = s
  | .exists_ p, found, s' => found = (s.names p).isSome ∧ s' = s
  | .unlink p, .ok _, s' => (s.names p).isSome = true ∧ s' = s.remove p
  | .unlink _, .error _, s' => faulty ∧ s' = s
  | .openText p, .ok h, s' => s.names p = some h ∧ s' = s
  | .readAll h, .ok text, s' => (∃ n, s.inodes h = some n ∧ text = n.content) ∧ s' = s
  | .openText _, .error _, s' => s' = s
  | .readAll _, .error _, s' => s' = s

section Fields
variable (s : Files ι) (p q : Path) (h : Nat) (f : Inode ι → Inode ι)

theorem modify_inodes : (s.modify h f).inodes = Function.update s.inodes h ((s.inodes h).map f) := rfl

theorem rename_names : (s.rename p q).names =
    Function.update (Function.update s.names p none) q (s.names p) := rfl

theorem remove_names : (s.remove p).names = Function.update s.names p none := rfl

end Fields

theorem modify_self (s : Files ι) {h : Nat} {n : Inode ι} {f : Inode ι → Inode ι}
    (hn : s.inodes h = some n) (hf : f n = n) : s.modify h f = s := by
  have hinodes : Function.update s.inodes h ((s.inodes h).map f) = s.inodes := by
    rw [hn, Option.map_some, hf, ← hn, Function.update_eq_self]
  obtain ⟨names, inodes, drawn, named⟩ := s
  simp only [modify] at hinodes ⊢
  simp only [hinodes]

end Files

end FileSystem
