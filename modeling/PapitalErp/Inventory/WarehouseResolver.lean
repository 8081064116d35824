import PapitalErp.Lib.Transition

/-!
# The warehouse of a line

A line names its warehouse by code, by name or not at all; the resolver turns
this into the code of an active warehouse. No rule depends on how the text
functions of the host treat letters, so they are parameters.
-/

namespace PapitalErp

/-- `String.prototype.trim` and `toLowerCase`. -/
structure HostText where
  trim : String → String
  toLowerCase : String → String

/-- An active row of `warehouses`; a code is never empty
(`WarehouseService.createWarehouse`). -/
structure Warehouse where
  code : String
  name : String
  code_ne : code ≠ ""

inductive WarehouseError where
  | noActiveWarehouse
  | unknownWarehouse (input : String)
  deriving DecidableEq

/-- The value a `Map` holds for a key: the last one written. -/
def lastWritten (key : Warehouse → String) (active : List Warehouse) (k : String) :
    Option String :=
  (active.reverse.find? fun w => decide (key w = k)).map Warehouse.code

/-- `createWarehouseResolver(tx)(raw)`; `active` is ordered by id. -/
def resolveWarehouse (text : HostText) (active : List Warehouse) (raw : String) :
    Except WarehouseError String :=
  match active with
  | [] => .error .noActiveWarehouse
  | first :: _ =>
      let input := text.trim raw
      if input = "" then .ok first.code
      else
        let lower := text.toLowerCase input
        match lastWritten (fun w => text.toLowerCase w.code) active lower with
        | some byCode => .ok byCode
        | none =>
            -- an unnamed warehouse has no entry by name
            match lastWritten (fun w => text.toLowerCase (text.trim w.name))
                (active.filter fun w => decide (w.name ≠ "")) lower with
            | some byName => .ok byName
            | none => .error (.unknownWarehouse input)

theorem mem_of_lastWritten {key : Warehouse → String} {active : List Warehouse} {k code : String}
    (h : lastWritten key active k = some code) : ∃ w ∈ active, w.code = code := by
  rw [lastWritten, Option.map_eq_some_iff] at h
  obtain ⟨w, hw, rfl⟩ := h
  exact ⟨w, List.mem_reverse.mp (List.mem_of_find?_eq_some hw), rfl⟩

/-- The resolver answers with the code of an active warehouse. -/
theorem resolveWarehouse_mem {text : HostText} {active : List Warehouse} {raw code : String}
    (h : resolveWarehouse text active raw = .ok code) : ∃ w ∈ active, w.code = code := by
  cases active with
  | nil => cases h
  | cons first rest =>
      simp only [resolveWarehouse] at h
      split at h
      · exact ⟨first, List.mem_cons_self, by simpa using h⟩
      · split at h
        · rename_i hcode
          cases h
          exact mem_of_lastWritten hcode
        · split at h
          · rename_i hname
            cases h
            obtain ⟨w, hw, rfl⟩ := mem_of_lastWritten hname
            exact ⟨w, List.mem_of_mem_filter hw, rfl⟩
          · cases h

theorem resolveWarehouse_ne {text : HostText} {active : List Warehouse} {raw code : String}
    (h : resolveWarehouse text active raw = .ok code) : code ≠ "" := by
  obtain ⟨w, -, rfl⟩ := resolveWarehouse_mem h
  exact w.code_ne

end PapitalErp
