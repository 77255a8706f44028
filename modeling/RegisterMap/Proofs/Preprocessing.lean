import RegisterMap.Compile
import Mathlib.Data.List.Basic

namespace RegisterMap

def ValueEntry.cased (case : NameCase) (v : ValueEntry) : ValueEntry :=
  { v with name := case.apply v.name }

def FieldEntry.cased (case : NameCase) (f : FieldEntry) : FieldEntry :=
  { f with name := case.apply f.name, values := f.values.map (·.cased case) }

def RegisterEntry.cased (case : NameCase) (r : RegisterEntry) : RegisterEntry :=
  { r with name := case.apply r.name, fields := r.fields.map (·.cased case) }

/-- Registers, fields and values under the names that a configuration gives them, from the base
address that it sets. The name of the map has no case given to it. -/
def Description.configured (config : Config) (d : Description) : Description :=
  { d with
    base := config.base.getD d.base
    registers := d.registers.map (·.cased config.nameCase) }

/-- What is left of a configuration when names and base address are done with. -/
def Config.widthOnly (config : Config) : Config := { dataWidth := config.dataWidth }

section

variable {register field : String} {word : Word} {case : NameCase}

theorem require_congr {condition other : Prop} [Decidable condition] [Decidable other]
    (same : condition ↔ other) (otherwise : Violation) :
    require condition otherwise = require other otherwise := by
  simp only [require, same]

/-- A value is looked at under its new name alone, also where it is refused. -/
theorem NamedValue.ofEntry_cased (width : Nat) (entry : ValueEntry) :
    ofEntry register field width .asWritten (entry.cased case) =
      ofEntry register field width case entry := rfl

theorem NamedValue.collect_cased (width : Nat) (earlier : List NamedValue)
    (entries : List ValueEntry) :
    collect register field width .asWritten earlier (entries.map (·.cased case)) =
      collect register field width case earlier entries := by
  induction entries generalizing earlier with
  | nil => rfl
  | cons entry entries ih =>
    simp only [List.map_cons, collect, ofEntry_cased, ih]

theorem Field.ofEntry_cased (entry : FieldEntry) :
    ofEntry register word .asWritten (entry.cased case) = ofEntry register word case entry := by
  have values : NamedValue.collect register (case.apply entry.name) entry.width.toNat .asWritten []
      (entry.values.map (·.cased case)) =
        NamedValue.collect register (case.apply entry.name) entry.width.toNat case [] entry.values :=
    NamedValue.collect_cased ..
  simp only [ofEntry, ← values]
  rfl

theorem checkedRegister_cased (entry : RegisterEntry) :
    checkedRegister word .asWritten (entry.cased case) = checkedRegister word case entry := by
  have fields : entry.fields.mapM (Field.ofEntry (case.apply entry.name) word case) =
      (entry.fields.map (·.cased case)).mapM
        (Field.ofEntry (case.apply entry.name) word .asWritten) := by
    rw [List.mapM_map]
    exact congrArg (List.mapM · entry.fields) (funext fun f => (Field.ofEntry_cased f).symm)
  have nonempty : require (entry.fields ≠ []) (.noFields (case.apply entry.name)) =
      require ((entry.cased case).fields ≠ []) (.noFields (case.apply entry.name)) :=
    require_congr (not_congr List.map_eq_nil_iff.symm) _
  simp only [checkedRegister, Register.ofEntry, fields, nonempty]
  rfl

end

theorem mapM_checkedRegister_cased (word : Word) (case : NameCase) (entries : List RegisterEntry) :
    (entries.map (·.cased case)).mapM (checkedRegister word .asWritten) =
      entries.mapM (checkedRegister word case) := by
  rw [List.mapM_map]
  exact congrArg (List.mapM · entries) (funext checkedRegister_cased)

/-- A configuration does no more than to prepare a description: to compile under it is to compile
the prepared description under the width alone. Both come to the same map, or fail with the same
violation down to every name in it. -/
theorem compile_eq_compile_configured (config : Config) (d : Description) :
    compile config d = compile config.widthOnly (d.configured config) := by
  have word : config.widthOnly.word = config.word := rfl
  have base : config.widthOnly.baseOf (d.configured config) = config.baseOf d := rfl
  have registers (word : Word) : (d.configured config).registers.mapM
      (checkedRegister word config.widthOnly.nameCase) =
        d.registers.mapM (checkedRegister word config.nameCase) :=
    mapM_checkedRegister_cased word config.nameCase d.registers
  have name : (d.configured config).name = d.name := rfl
  simp only [compile, word, base, registers, name]

end RegisterMap
