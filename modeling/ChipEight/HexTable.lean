/-!
Tables with one entry for every hexadecimal digit, as the variable registers and the keys are.
-/

namespace ChipEight

abbrev HexTable (α : Type) := Vector α 16

namespace HexTable

variable {α : Type}

def fill (a : α) : HexTable α :=
  Vector.replicate 16 a

def entry (t : HexTable α) (k : Fin 16) : α :=
  getElem t k.val k.isLt

def setEntry (t : HexTable α) (k : Fin 16) (a : α) : HexTable α :=
  t.set k.val a k.isLt

theorem entry_setEntry (t : HexTable α) (j k : Fin 16) (a : α) :
    (t.setEntry j a).entry k = if j = k then a else t.entry k := by
  simp only [entry, setEntry, Vector.getElem_set, Fin.ext_iff]

def tabulate (f : Fin 16 → α) : HexTable α :=
  Vector.ofFn f

theorem entry_tabulate (f : Fin 16 → α) (k : Fin 16) : (tabulate f).entry k = f k := by
  simp [tabulate, entry]

end HexTable

end ChipEight
