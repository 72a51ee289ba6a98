import Mathlib.Data.List.Basic

/-!
# A page file with a write-ahead log

A database is a list of pages.  Committed transactions go to a log first: a
commit holds the new images of some pages and the number of pages the database
has after it.  What a reader sees is the main file with the commits of the log
applied in order; the log itself does not say which main file it belongs to.
-/

namespace WriteAheadLog

universe u

/-- A committed transaction: pages are numbered from 0, the last image of a page
    counts. -/
structure Commit (π : Type u) where
  writes : List (Nat × π)
  size : Nat
deriving DecidableEq, Repr

variable {π : Type u}

/-- A page after a commit. -/
def Commit.pageAfter (c : Commit π) (image : List π) (n : Nat) : Option π :=
  (c.writes.reverse.lookup n).or image[n]?

def Commit.apply (image : List π) (c : Commit π) : List π :=
  (List.range c.size).filterMap (c.pageAfter image)

/-- What a reader of a main file and a log sees. -/
def contents (main : List π) (log : List (Commit π)) : List π := log.foldl Commit.apply main

@[simp] theorem contents_nil (main : List π) : contents main [] = main := rfl

end WriteAheadLog
