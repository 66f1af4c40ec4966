import BlizzardBridge.UartIndex
import BlizzardBridge.UartSwitch
import BlizzardBridge.UartFrame
import BlizzardBridge.UartReceive
import BlizzardBridge.UartLatency
import BlizzardBridge.Nvs
import BlizzardBridge.DmxConfig
import BlizzardBridge.ConnectionManager
import BlizzardBridge.NvsLoad
import BlizzardBridge.ConfigEffect
import BlizzardBridge.NvsLoadSpec
import BlizzardBridge.NvsRestore
import BlizzardBridge.NvsPopulate
import BlizzardBridge.Program
import BlizzardBridge.ArtnetReply
import BlizzardBridge.Artnet
import BlizzardBridge.ArtnetSpec
import BlizzardBridge.ArtnetBounds
import BlizzardBridge.ArtnetDmx
import BlizzardBridge.Terminal
import BlizzardBridge.TerminalSpec
import BlizzardBridge.ConfigAgree
import BlizzardBridge.ArtnetDispatch
import BlizzardBridge.ArtnetSend
import BlizzardBridge.ArtnetLink
import BlizzardBridge.UartLink
import BlizzardBridge.ArtnetAddress
import BlizzardBridge.ArtnetUdp
import BlizzardBridge.ArtnetProg
import BlizzardBridge.ArtnetTasks
import BlizzardBridge.ArtnetTurns
import BlizzardBridge.ArtnetConnection
import BlizzardBridge.ArtnetEnabled
import BlizzardBridge.UartRing
import BlizzardBridge.UartShared
import BlizzardBridge.UartIsolation
import BlizzardBridge.StationAgree
import BlizzardBridge.ArtnetOwnership
import BlizzardBridge.ArtnetPort
import BlizzardBridge.Sacn
import BlizzardBridge.SacnFrame
import BlizzardBridge.SequenceNumbers
import BlizzardBridge.StartCode
import BlizzardBridge.Credentials
import BlizzardBridge.WifiPortal
import BlizzardBridge.DeviceName
import BlizzardBridge.NvsBlocks
import BlizzardBridge.NvsErrors
import BlizzardBridge.NvsTermination
import BlizzardBridge.Rdm
import BlizzardBridge.RdmDiscovery
import BlizzardBridge.DottedQuad
import BlizzardBridge.TerminalBounds
import BlizzardBridge.DmxCopy
import BlizzardBridge.BlizzardListen
import BlizzardBridge.PollReplyNames
import BlizzardBridge.ProgReplyLeak
import BlizzardBridge.Wdmx
import BlizzardBridge.WdmxConnect
import BlizzardBridge.WdmxExits
import BlizzardBridge.RdmReads
import BlizzardBridge.UartDriven
import BlizzardBridge.NvsUpdate
import BlizzardBridge.Refinement
import BlizzardBridge.RingBuffer
import BlizzardBridge.UartRxPath
import BlizzardBridge.UartRxStream
import BlizzardBridge.UartRxDeaf
import BlizzardBridge.Framing
import BlizzardBridge.UartTxPath
import BlizzardBridge.UartTxStream
import BlizzardBridge.UartTxBreak
import BlizzardBridge.ConfigGiven
import BlizzardBridge.PowerCycle
import BlizzardBridge.UartTorn
import BlizzardBridge.Bridge
import BlizzardBridge.ListenDriven
import BlizzardBridge.ListenRecovery
import BlizzardBridge.ArtnetNetwork
import BlizzardBridge.WdmxSession
import BlizzardBridge.Provisioning
