import EinkLab.Text.Utf8
import Mathlib.Data.List.AList

/-!
# A directory of files

A directory is a finite map from file names to contents.  Writing replaces a whole file, and a move
is atomic and replaces its target, so every operation is one change of the map; what it does to each
name is said once, by a `content_*` lemma.
-/

namespace EinkLab.Files

open Text

abbrev FileName := List Char

/-- The files of a directory. -/
structure Directory where
  files : AList fun _ : FileName => Bytes

namespace Directory

def empty : Directory := ⟨∅⟩

/-- The content of a file; `none` when there is no such file. -/
def content (d : Directory) (name : FileName) : Option Bytes := d.files.lookup name

def isFile (d : Directory) (name : FileName) : Bool := (d.content name).isSome

def write (d : Directory) (name : FileName) (bytes : Bytes) : Directory :=
  ⟨d.files.insert name bytes⟩

def delete (d : Directory) (name : FileName) : Directory := ⟨d.files.erase name⟩

/-- An atomic move that replaces its target. -/
def move (d : Directory) (source target : FileName) : Directory :=
  match d.content source with
  | none => d
  | some bytes => (d.delete source).write target bytes

/-- The names of the files that satisfy `p`, in no particular order. -/
def listFiles (d : Directory) (p : FileName → Bool) : List FileName := d.files.keys.filter p

def deleteAll (d : Directory) (names : List FileName) : Directory := names.foldl delete d

variable {d : Directory} {name other source target : FileName} {bytes : Bytes}

@[simp] theorem content_empty : empty.content name = none := rfl

@[simp] theorem content_write : (d.write name bytes).content name = some bytes :=
  AList.lookup_insert d.files

theorem content_write_ne (h : name ≠ other) : (d.write other bytes).content name = d.content name :=
  AList.lookup_insert_ne h

@[simp] theorem content_delete : (d.delete name).content name = none :=
  AList.lookup_erase name d.files

theorem content_delete_ne (h : name ≠ other) : (d.delete other).content name = d.content name :=
  AList.lookup_erase_ne h

theorem mem_listFiles {p : FileName → Bool} :
    name ∈ d.listFiles p ↔ (d.content name).isSome = true ∧ p name = true := by
  rw [listFiles, List.mem_filter, ← AList.mem_keys, content, AList.lookup_isSome]

theorem content_deleteAll (names : List FileName) :
    (d.deleteAll names).content name = if name ∈ names then none else d.content name := by
  induction names generalizing d with
  | nil => rfl
  | cons x xs ih =>
    show ((d.delete x).deleteAll xs).content name = _
    rw [ih]
    by_cases hx : name = x
    · subst hx
      simp
    · simp only [List.mem_cons, hx, false_or]
      rw [content_delete_ne hx]

/-- Deleting the listed files leaves the others as they were. -/
theorem content_deleteAll_listFiles {p : FileName → Bool} :
    (d.deleteAll (d.listFiles p)).content name = if p name then none else d.content name := by
  rw [content_deleteAll]
  by_cases hp : p name
  · rw [if_pos hp]
    split
    · rfl
    · next hmem =>
      rw [mem_listFiles] at hmem
      simpa [hp] using hmem
  · rw [if_neg hp, if_neg]
    rw [mem_listFiles]
    exact fun h => hp h.2

/-- A file written under a temporary name and moved into place. -/
theorem content_write_move (htemp : source ≠ target) :
    ((d.write source bytes).move source target).content name =
      if name = target then some bytes else if name = source then none else d.content name := by
  rw [move, content_write]
  by_cases ht : name = target
  · subst ht
    rw [if_pos rfl]
    exact content_write
  · rw [if_neg ht, content_write_ne ht]
    by_cases hs : name = source
    · subst hs
      rw [if_pos rfl]
      exact content_delete
    · rw [if_neg hs, content_delete_ne hs, content_write_ne hs]

end Directory

end EinkLab.Files
