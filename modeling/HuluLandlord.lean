import HuluLandlord.Ddz.Phase
import HuluLandlord.Ddz.Clock
import HuluLandlord.Ddz.TimerQueue
import HuluLandlord.Ddz.Settlement
import HuluLandlord.Ddz.Multiple
import HuluLandlord.Ddz.Doubling
import HuluLandlord.Ddz.Bidding
import HuluLandlord.Ddz.Turn
import HuluLandlord.Agent.Consume
import HuluLandlord.SevenSparrow.Broke
import HuluLandlord.SevenSparrow.Order
import HuluLandlord.SevenSparrow.Place
import HuluLandlord.SevenSparrow.GameStart
import HuluLandlord.SevenSparrow.Punish
import HuluLandlord.Match.Matching
import HuluLandlord.Agent.Mail
import HuluLandlord.Agent.Inventory
import HuluLandlord.Agent.Task
import HuluLandlord.Agent.Store
import HuluLandlord.Agent.RuneLv
import HuluLandlord.Agent.RuneEquip
import HuluLandlord.Services.Cdk
import HuluLandlord.Services.Gourd
import HuluLandlord.Services.Vine
import HuluLandlord.Services.Soil
import HuluLandlord.Services.Season
import HuluLandlord.Ddz.Ownership
import HuluLandlord.Agent.Txz
import HuluLandlord.Agent.TxzLevel
import HuluLandlord.Agent.WinStreak
import HuluLandlord.Agent.TxzReward
import HuluLandlord.Agent.TxzMail
import HuluLandlord.Agent.TitleLv
import HuluLandlord.Agent.LvReward
import HuluLandlord.Agent.Friend
import HuluLandlord.Agent.Gift
import HuluLandlord.Agent.PieceShop
import HuluLandlord.Services.RankList
import HuluLandlord.Agent.Vip
import HuluLandlord.Agent.SignIn
import HuluLandlord.Agent.LuckBaoxiang
import HuluLandlord.Agent.ProtectLv
import HuluLandlord.Agent.RoomReward
import HuluLandlord.Ddz.Payout
import HuluLandlord.Match.Start
import HuluLandlord.Agent.UserTime
import HuluLandlord.Services.FriendExp
import HuluLandlord.Utils.Eventx
import HuluLandlord.Utils.Share
import HuluLandlord.Services.MailGlobal
import HuluLandlord.Agent.Achievement
import HuluLandlord.Agent.Watering
import HuluLandlord.Agent.Sign14
import HuluLandlord.Services.PayFinish
import HuluLandlord.Agent.Activity4001
import HuluLandlord.Services.ActivityMgr
import HuluLandlord.Agent.MsgQueue
import HuluLandlord.Services.AgentMgr
import HuluLandlord.Services.UserService
import HuluLandlord.Services.DdzRobotMgr
import HuluLandlord.Ddz.Pairs
import HuluLandlord.Ddz.Values
import HuluLandlord.Ddz.Planes
import HuluLandlord.Ddz.RuleBook
import HuluLandlord.Ddz.Compare
import HuluLandlord.Agent.UserHero
import HuluLandlord.Agent.UseItem
import HuluLandlord.Agent.ItemCmd
import HuluLandlord.Agent.HeroMood
import HuluLandlord.Services.CdkCreate
import HuluLandlord.Services.GourdOutput
import HuluLandlord.Agent.BlindBox
import HuluLandlord.Agent.LuckAdvert
import HuluLandlord.Utils.Objx
import HuluLandlord.SevenSparrow.Zuhe
import HuluLandlord.Agent.RecentGame
import HuluLandlord.Agent.Visitors
import HuluLandlord.Ddz.DealHelper
import HuluLandlord.Ddz.SplitLegal
import HuluLandlord.Replace
import HuluLandlord.Utils.SensitiveWords
import HuluLandlord.Wheel
import HuluLandlord.Skynet.Timer
import HuluLandlord.Skynet.Timeout
import HuluLandlord.Skynet.MessageQueue
import HuluLandlord.Pool
import HuluLandlord.Skynet.Dispatch
import HuluLandlord.Skynet.DispatchSafe
import HuluLandlord.Bisect
import HuluLandlord.Skynet.Handle
import HuluLandlord.Ddz.AutoLegal
import HuluLandlord.Ddz.AutoRun
