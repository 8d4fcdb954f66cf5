import BmsNode.Firmware.Crc8

/-!
# The configuration module

A model of `cfg.c`: the packed 26-byte configuration block in RAM and in EEPROM,
its check byte, and the parameter table through which it is set and read.
-/

namespace BmsNode

/-- The little-endian 16-bit value of two bytes. -/
def le16 (lo hi : UInt8) : UInt16 := lo.toUInt16 ||| (hi.toUInt16 <<< 8)

/-- `config_t`: the 26 bytes of the packed structure. -/
abbrev Config := Vector UInt8 26

namespace Config

/-- The `len` byte of the header. -/
def len (cfg : Config) : UInt8 := cfg[0]

/-- The `type` byte of the header. -/
def type (cfg : Config) : UInt8 := cfg[1]

/-- The bus address. -/
def addr (cfg : Config) : UInt8 := cfg[2]

/-- Voltage calibration scaler. -/
def vscale (cfg : Config) : UInt16 := le16 cfg[3] cfg[4]

/-- Voltage calibration offset. -/
def voffset (cfg : Config) : Int16 := (le16 cfg[5] cfg[6]).toInt16

/-- Temperature calibration scaler. -/
def tscale (cfg : Config) : UInt16 := le16 cfg[7] cfg[8]

/-- Temperature calibration offset. -/
def toffset (cfg : Config) : Int16 := (le16 cfg[9] cfg[10]).toInt16

/-- External sensor calibration scaler. -/
def xscale (cfg : Config) : UInt16 := le16 cfg[11] cfg[12]

/-- External sensor calibration offset. -/
def xoffset (cfg : Config) : Int16 := (le16 cfg[13] cfg[14]).toInt16

/-- Upper shunt voltage in millivolts. -/
def shuntmax (cfg : Config) : UInt16 := le16 cfg[15] cfg[16]

/-- Lower shunt voltage in millivolts. -/
def shuntmin (cfg : Config) : UInt16 := le16 cfg[17] cfg[18]

/-- Shunt inactivity timeout. -/
def shunttime (cfg : Config) : UInt16 := le16 cfg[19] cfg[20]

/-- Upper regulation temperature in degrees. -/
def temphi (cfg : Config) : Int8 := cfg[21].toInt8

/-- Lower regulation temperature in degrees. -/
def templo (cfg : Config) : Int8 := cfg[22].toInt8

/-- Temperature regulation factor. -/
def tempadj (cfg : Config) : UInt16 := le16 cfg[23] cfg[24]

/-- The check byte. -/
def crc (cfg : Config) : UInt8 := cfg[25]

/-- Store the byte at an offset. -/
def set8 (cfg : Config) (idx : Nat) (value : UInt8) : Config := cfg.setIfInBounds idx value

/-- Store the 16-bit value at an offset. -/
def set16 (cfg : Config) (idx : Nat) (value : UInt16) : Config :=
  (cfg.set8 idx value.toUInt8).set8 (idx + 1) (value >>> 8).toUInt8

end Config

/-- The thirteen parameters of a configuration. -/
structure Parms where
  addr : UInt8
  vscale : UInt16
  voffset : Int16
  tscale : UInt16
  toffset : Int16
  xscale : UInt16
  xoffset : Int16
  shuntmax : UInt16
  shuntmin : UInt16
  shunttime : UInt16
  temphi : Int8
  templo : Int8
  tempadj : UInt16
  deriving DecidableEq

/-- The parameters held in a configuration block, without its header and check byte. -/
def Config.parms (cfg : Config) : Parms :=
  { addr := cfg.addr, vscale := cfg.vscale, voffset := cfg.voffset, tscale := cfg.tscale
    toffset := cfg.toffset, xscale := cfg.xscale, xoffset := cfg.xoffset
    shuntmax := cfg.shuntmax, shuntmin := cfg.shuntmin, shunttime := cfg.shunttime
    temphi := cfg.temphi, templo := cfg.templo, tempadj := cfg.tempadj }

/-- `CFG_TYPE_2`. -/
def cfgType2 : UInt8 := 2

/-- `sizeof(config_t)`. -/
def cfgSize : UInt8 := 26

/-- `g_cfg_parms` and the EEPROM block behind it. -/
structure Cfg where
  gCfgParms : Config
  eeprom : Config
  deriving DecidableEq

/-- The byte at `((uint8_t *)cfg)[idx]`. Past the end of the structure lies other memory, whose
contents are `tail`. -/
def cfgByte (tail : Nat → UInt8) (cfg : Config) (idx : Nat) : UInt8 :=
  if h : idx < 26 then cfg[idx] else tail (idx - 26)

/-- `cfg_compute_crc`: the CRC of all bytes before the last, by the block's own length byte. The
loop bound `len - 1` is an `int`, so a length of zero reads nothing. -/
def cfgComputeCrc (tail : Nat → UInt8) (cfg : Config) : UInt8 :=
  (List.range (cfg.len.toNat - 1)).foldl
    (fun crc idx => crc8CcittUpdate crc (cfgByte tail cfg idx)) 0

/-- The assignments at the end of `cfg_load` that fill in the defaults. -/
def cfgDefaults (cfg : Config) : Config :=
  let cfg := (cfg.set8 2 0).set16 3 4400
  let cfg := ((cfg.set16 5 0).set16 7 0).set16 9 0
  let cfg := ((cfg.set16 11 0).set16 13 0).set16 15 4100
  let cfg := (cfg.set16 17 4000).set16 19 300
  ((cfg.set8 21 50).set8 22 40).set16 23 0

/-- `cfg_load`: read the block from EEPROM and fall back to the defaults unless it is valid. -/
def cfgLoad (tail : Nat → UInt8) (s : Cfg) : Bool × Cfg :=
  let cfg := s.eeprom
  let crc := cfgComputeCrc tail cfg
  if cfg.type = cfgType2 ∧ cfg.len = cfgSize ∧ crc = cfg.crc then
    (true, { s with gCfgParms := cfg })
  else (false, { s with gCfgParms := cfgDefaults cfg })

/-- `cfg_commit`: fill in header and check byte and write the block back. A reset stores the
inverted check byte and reloads. -/
def cfgCommit (tail : Nat → UInt8) (reset : Bool) (s : Cfg) : Cfg :=
  let cfg := (s.gCfgParms.set8 0 cfgSize).set8 1 cfgType2
  let cfg := cfg.set8 25 (cfgComputeCrc tail cfg)
  let cfg := if reset then cfg.set8 25 (~~~cfg.crc) else cfg
  let s : Cfg := { gCfgParms := cfg, eeprom := cfg }
  if reset then (cfgLoad tail s).2 else s

/-- `cfg_store`. -/
def cfgStore (tail : Nat → UInt8) (s : Cfg) : Cfg := cfgCommit tail false s

/-- `cfg_reset`. -/
def cfgReset (tail : Nat → UInt8) (s : Cfg) : Cfg := cfgCommit tail true s

/-- `parm_entry_t`. -/
structure ParmEntry where
  index : Nat
  count : Nat
  deriving DecidableEq, Repr

/-- `parmtable`. -/
def parmtable : List ParmEntry :=
  [⟨0, 0⟩, ⟨2, 1⟩, ⟨3, 2⟩, ⟨5, 2⟩, ⟨7, 2⟩, ⟨9, 2⟩, ⟨11, 2⟩, ⟨13, 2⟩, ⟨15, 2⟩, ⟨17, 2⟩, ⟨19, 2⟩,
    ⟨21, 1⟩, ⟨22, 1⟩, ⟨23, 2⟩]

/-- `MAX_PARMID`. -/
def maxParmid : UInt8 := 13

/-- `parmtable[id]`. -/
def parmEntry (id : UInt8) : ParmEntry := parmtable.getD id.toNat ⟨0, 0⟩

/-- `cfg_set`: store the parameter whose id and value bytes are at `value`, and commit. The
comparison of `count` with `len - 1` is between `int`s. -/
def cfgSet (tail : Nat → UInt8) (s : Cfg) (len : UInt8) (value : Vector UInt8 3) :
    Bool × Cfg :=
  let id := value[0]
  if id < 1 ∨ id > maxParmid then (false, s)
  else if ((parmEntry id).count : Int) ≠ (len.toNat : Int) - 1 then (false, s)
  else
    let entry := parmEntry id
    let cfg := s.gCfgParms.set8 entry.index value[1]
    let cfg := if entry.count = 2 then cfg.set8 (entry.index + 1) value[2] else cfg
    (true, cfgStore tail { s with gCfgParms := cfg })

/-- `cfg_get`: the reply length and the bytes written after the id. Zero reports an error and
writes nothing. -/
def cfgGet (s : Cfg) (len id : UInt8) : UInt8 × List UInt8 :=
  if id < 1 ∨ id > maxParmid then (0, [])
  else if (parmEntry id).count ≥ len.toNat then (0, [])
  else
    let entry := parmEntry id
    let value := (s.gCfgParms.toList.drop entry.index).take (if entry.count = 2 then 2 else 1)
    (UInt8.ofNat (entry.count + 1), value)

end BmsNode
