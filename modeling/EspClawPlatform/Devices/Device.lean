import EspClawPlatform.Lib.Table

namespace EspClawPlatform.Devices

structure Device where
  id : String
  baseTopic : String
  deriving DecidableEq

instance : Keyed Device String := ⟨Device.id⟩

end EspClawPlatform.Devices
