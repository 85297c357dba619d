import Mathlib.Algebra.Order.Ring.Nat
import Mathlib.Data.List.Basic
import Postit.Framework.Bytes

/-!
# Files behind a name

One name of a directory and the files it was ever given to.  A file that was opened keeps its
number: taking the name away leaves it to whoever still has it open, and opening the name again
makes a new file.
-/

namespace Postit.Framework

/-- The first bytes cut or filled with zeros to a length. -/
def Bytes.resize (b : Bytes) (len : ℕ) : Bytes := b.take len ++ List.replicate (len - b.length) 0

/-- The bytes with others written over them from a position on. -/
def Bytes.overwrite (b : Bytes) (pos : ℕ) (written : Bytes) : Bytes :=
  b.resize pos ++ written ++ b.drop (pos + written.length)

@[simp] lemma Bytes.length_resize (b : Bytes) (len : ℕ) : (b.resize len).length = len := by
  simp only [Bytes.resize, List.length_append, List.length_take, List.length_replicate]
  omega

lemma Bytes.resize_of_le {b : Bytes} {len : ℕ} (h : len ≤ b.length) :
    b.resize len = b.take len := by
  have hfill : len - b.length = 0 := by omega
  simp [Bytes.resize, hfill]

/-- Writing at the end appends. -/
lemma Bytes.overwrite_length (b written : Bytes) :
    b.overwrite b.length written = b ++ written := by
  simp [Bytes.overwrite, Bytes.resize_of_le (Nat.le_refl _)]

/-- A name, and the files it was given to, by number. -/
structure Slot where
  link : Option ℕ := none
  inodes : List Bytes := []
  linked : ∀ i, link = some i → i < inodes.length := by simp

namespace Slot

/-- What stands in a file. -/
def read (s : Slot) (inode : ℕ) : Bytes := s.inodes.getD inode []

/-- What the name leads to. -/
def contents (s : Slot) : Option Bytes := s.link.map s.read

/-- Puts other bytes in a file. -/
def edit (s : Slot) (inode : ℕ) (f : Bytes → Bytes) : Slot where
  link := s.link
  inodes := s.inodes.modify inode f
  linked i hi := by simpa using s.linked i hi

/-- Cuts or fills a file. -/
def setLen (s : Slot) (inode len : ℕ) : Slot := s.edit inode fun b => b.resize len

/-- Writes into a file. -/
def writeAt (s : Slot) (inode pos : ℕ) (written : Bytes) : Slot :=
  s.edit inode fun b => b.overwrite pos written

/-- Opens the name for writing, with a new empty file when it leads to none. -/
def openOrCreate (s : Slot) : ℕ × Slot :=
  match s.link with
  | some i => (i, s)
  | none =>
    (s.inodes.length,
      { link := some s.inodes.length, inodes := s.inodes ++ [[]], linked := by simp })

/-- Opens the name for writing with nothing in it. -/
def create (s : Slot) : ℕ × Slot :=
  let opened := s.openOrCreate
  (opened.1, opened.2.setLen opened.1 0)

/-- Takes the name away. -/
def unlink (s : Slot) : Slot where
  link := none
  inodes := s.inodes

variable {s : Slot} {i : ℕ} {b : Bytes}

lemma contents_eq_some (h : s.contents = some b) : ∃ i, s.link = some i ∧ s.read i = b := by
  simpa [contents] using h

lemma contents_of_link (h : s.link = some i) : s.contents = some (s.read i) := by
  simp [contents, h]

@[simp] lemma contents_unlink : s.unlink.contents = none := rfl

@[simp] lemma link_edit (f : Bytes → Bytes) : (s.edit i f).link = s.link := rfl

@[simp] lemma link_setLen (n : ℕ) : (s.setLen i n).link = s.link := rfl

@[simp] lemma link_writeAt (pos : ℕ) (written : Bytes) : (s.writeAt i pos written).link = s.link :=
  rfl

lemma read_edit (h : s.link = some i) (f : Bytes → Bytes) : (s.edit i f).read i = f (s.read i) := by
  have hi := s.linked i h
  simp [edit, read, List.getD_eq_getElem?_getD, hi]

lemma read_setLen (h : s.link = some i) (n : ℕ) : (s.setLen i n).read i = (s.read i).resize n :=
  read_edit h _

lemma read_writeAt (h : s.link = some i) (pos : ℕ) (written : Bytes) :
    (s.writeAt i pos written).read i = (s.read i).overwrite pos written :=
  read_edit h _

lemma link_openOrCreate (s : Slot) : s.openOrCreate.2.link = some s.openOrCreate.1 := by
  unfold openOrCreate
  cases h : s.link <;> simp [h]

/-- Opening keeps what the name leads to; a new file is empty. -/
lemma read_openOrCreate (s : Slot) :
    s.openOrCreate.2.read s.openOrCreate.1 = s.contents.getD [] := by
  unfold openOrCreate
  cases h : s.link with
  | some i => simp [contents, h]
  | none => simp [contents, h, read, List.getD_eq_getElem?_getD]

lemma link_create (s : Slot) : s.create.2.link = some s.create.1 := link_openOrCreate s

lemma read_create (s : Slot) : s.create.2.read s.create.1 = [] := by
  have h := read_setLen (link_openOrCreate s) 0
  simpa [create, Bytes.resize] using h

end Slot

end Postit.Framework
