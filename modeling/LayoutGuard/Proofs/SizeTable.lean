import LayoutGuard.SizeTable

/-!
Looking up a size after storing one. A table is known by its answers, so the equations for
`put` say all about it.
-/

namespace LayoutGuard.SizeTable

@[simp] theorem find?_empty (key : String) : empty.find? key = none := by
  simp [find?, empty]

theorem find?_put (t : SizeTable) (key wanted : String) (size : UInt64) :
    (t.put key size).find? wanted = if key = wanted then some size else t.find? wanted := by
  simp only [find?, put, Std.ExtHashMap.getElem?_insert, beq_iff_eq]

/-- A table is known by its answers. -/
theorem ext_find? {t u : SizeTable} (h : ∀ key, t.find? key = u.find? key) : t = u := by
  obtain ⟨sizes⟩ := t
  obtain ⟨others⟩ := u
  exact congrArg SizeTable.mk (Std.ExtHashMap.ext_getElem? h)

@[simp] theorem size_empty : empty.size = 0 :=
  Std.ExtHashMap.size_empty

/-- Only a new key adds to the size. -/
theorem size_put (t : SizeTable) (key : String) (size : UInt64) :
    (t.put key size).size = if (t.find? key).isSome then t.size else t.size + 1 := by
  simp only [SizeTable.size, put, find?, Std.ExtHashMap.size_insert,
    Std.ExtHashMap.mem_iff_isSome_getElem?]
  rfl

theorem sizeOf?_insert (t : SizeTable) (c wanted : CType) (size : UInt64) :
    (t.insert c size).sizeOf? wanted =
      if c.spelling = wanted.spelling then some size else t.sizeOf? wanted :=
  find?_put t c.spelling wanted.spelling size

end LayoutGuard.SizeTable
