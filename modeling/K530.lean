import K530.Keymap.Process
import K530.Lib.Mailbox
import K530.Lib.Overtaking
import K530.Lib.Paged
import K530.Lib.Places
import K530.Lib.Recent
import K530.Lib.Run
import K530.Quantum.MouseKey
import K530.Theory.Combo.Lossless
import K530.Theory.Combo.Prepared
import K530.Theory.Debounce.Asymmetric
import K530.Theory.Debounce.Events
import K530.Theory.Debounce.Eager
import K530.Theory.Drivers.OledDirty
import K530.Theory.Drivers.OledRotated
import K530.Theory.Eeprom.External
import K530.Theory.Eeprom.PowerLoss
import K530.Theory.Eeprom.Rejected
import K530.Theory.Eeprom.Sn32
import K530.Theory.Keymap.Exclusive
import K530.Theory.Keymap.Playback
import K530.Theory.Keymap.Recording
import K530.Theory.Keymap.Replay
import K530.Theory.Keymap.Rollover
import K530.Theory.Keymap.Stuck
import K530.Theory.Lighting.Afterglow
import K530.Theory.Lighting.Agree
import K530.Theory.Lighting.Commands
import K530.Theory.Lighting.Drive
import K530.Theory.Lighting.Idle
import K530.Theory.Lighting.LayerBlink
import K530.Theory.Lighting.Persist
import K530.Theory.Lighting.RgbTask
import K530.Theory.Lighting.Underglow
import K530.Theory.Link.Adafruit
import K530.Theory.Link.Codec
import K530.Theory.Link.Debounce
import K530.Theory.Link.Delivery
import K530.Theory.Link.HostSlot
import K530.Theory.Link.Rekick
import K530.Theory.Link.Response
import K530.Theory.Midi.Music
import K530.Theory.Midi.Sequencer
import K530.Theory.Midi.Sysex
import K530.Theory.Midi.Wire
import K530.Theory.Quantum.AutoShift
import K530.Theory.Quantum.Crc
import K530.Theory.Quantum.CustomOverride
import K530.Theory.Quantum.DeferredExec
import K530.Theory.Quantum.DeferredTime
import K530.Theory.Quantum.DynamicMacro
import K530.Theory.Quantum.Encoder
import K530.Theory.Quantum.KeyLock
import K530.Theory.Quantum.KeyOverride
import K530.Theory.Quantum.Melody
import K530.Theory.Quantum.MouseKey
import K530.Theory.Quantum.OneShot
import K530.Theory.Quantum.OneShotMods
import K530.Theory.Quantum.PointingDevice
import K530.Theory.Quantum.Release
import K530.Theory.Quantum.SendString
import K530.Theory.Quantum.SourceLayers
import K530.Theory.Quantum.SpaceCadet
import K530.Theory.Quantum.Steno
import K530.Theory.Quantum.TapDance
import K530.Theory.Quantum.TapDanceMods
import K530.Theory.Quantum.TapDanceTask
import K530.Theory.Quantum.Terminal
import K530.Theory.Quantum.UcisBounds
import K530.Theory.Quantum.Unicode
import K530.Theory.Quantum.Wpm
import K530.Theory.Report.Oldest
import K530.Theory.Report.Switch
import K530.Theory.Spi.Receiver
import K530.Theory.Spi.Shifter
import K530.Theory.Spi.Torn
import K530.Theory.Split.Matrix
import K530.Theory.Split.Rgblight
import K530.Theory.Split.Rpc
import K530.Theory.Split.Throttle
import K530.Theory.Split.Transactions
import K530.Theory.Tapping.Duration
import K530.Theory.Tapping.Order
import K530.Theory.Tapping.Recover
import K530.Theory.Via.MacroSend
import K530.Theory.Via.Region
