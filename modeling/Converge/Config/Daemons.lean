import Converge.Config.Sections
import Converge.Files.Path
import Converge.Text.Blank

/-!
# Settings of the two daemons

Each daemon has the shared settings and a section of its own. `agrees` compares settings by what
they mean: a directory is the same however its path is spelled.
-/

namespace Converge

/-! ## 1. The daemon of the features -/

/-- The own section of the daemon of the features. -/
structure FeatureSection where
  /-- The directory of the unit files. -/
  unitDir : String := "/etc/systemd/system"
  /-- The number of chips of the device. -/
  chips : UInt64 := 1
deriving DecidableEq, Repr, Inhabited

/-- The settings of the daemon of the features. -/
structure FeatureConfig where
  common : CommonConfig := {}
  own : FeatureSection := {}
deriving DecidableEq, Repr, Inhabited

namespace FeatureConfig

/-- Accepts the settings or names the first one that is not acceptable. -/
def validate (c : FeatureConfig) : Except Error Unit :=
  firstBreach (c.common.checks ++
    [(c.own.chips != 0, "featured.num_asics", "must be > 0"),
      (Path.isAbsolute c.own.unitDir, "featured.systemd_dir", "must be an absolute path")])

/-- The settings mean the same. -/
def agrees (a b : FeatureConfig) : Bool :=
  a.common == b.common && Path.same a.own.unitDir b.own.unitDir && a.own.chips == b.own.chips

end FeatureConfig

/-! ## 2. The daemon of the monitoring protocol -/

/-- The own section of the daemon of the monitoring protocol. -/
structure BmpSection where
  /-- The unit of the monitoring service. -/
  unit : String := "bmp.service"
deriving DecidableEq, Repr, Inhabited

/-- The settings of the daemon of the monitoring protocol. -/
structure BmpConfig where
  common : CommonConfig := {}
  own : BmpSection := {}
deriving DecidableEq, Repr, Inhabited

/-- Accepts the settings or names the first one that is not acceptable. -/
def BmpConfig.validate (c : BmpConfig) : Except Error Unit :=
  firstBreach (c.common.checks ++
    [(!Text.isBlank c.own.unit, "bmpcfgd.bmp_unit", "must not be empty")])

end Converge
